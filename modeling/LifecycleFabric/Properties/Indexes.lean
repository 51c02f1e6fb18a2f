import LifecycleFabric.Engine.Enrollments
import LifecycleFabric.Engine.Query
import LifecycleFabric.Lib.SecondaryIndex
import LifecycleFabric.Properties.Identities

/-!
# Indexes

Models are looked up by name, versions by their label under a model or by their identity alone,
in indexes that the engine keeps beside the tables. Registrations extend them and a recovery
rebuilds them.
-/

namespace LifecycleFabric

open EngineState SecondaryIndex

variable {c : EngineConfig} {s s' : EngineState} {d : DurableState}

namespace EngineState

/-! ## What the indexes hold -/

/-- Models are stored under their identities, and each index is one of its table. -/
structure Indexed (s : EngineState) : Prop where
  models : ∀ key record, s.models.get? key = some record → record.id = ⟨key⟩
  names : Indexes (fun _ record => record.name) (fun _ record => record.id) s.modelNames s.models
  labels : Indexes (fun _ record => toLex (record.model.raw, record.label))
    (fun _ record => record.version) s.versionLabels s.versions
  index : Indexes (fun _ record => record.version.raw) (fun key _ => key) s.versionIndex s.versions

theorem indexed_init (c : EngineConfig) : Indexed (init c) where
  models key record hrecord := by cases hrecord
  names := indexes_empty _ _
  labels := indexes_empty _ _
  index := indexes_empty _ _

end EngineState

/-! ## Registrations -/

theorem EngineState.Indexed.registerModel (h : s.Indexed) (hfresh : identities.Fresh s)
    {record : ModelRecord} (hadded : s.ModelAdded c s' record) (hlabels : s'.versionLabels = s.versionLabels)
    (hindex : s'.versionIndex = s.versionIndex) : s'.Indexed := by
  have hkey : s.models.get? s.nextModelId = none := by
    by_contra hstored
    obtain ⟨stored, hstored⟩ := Option.ne_none_iff_exists'.mp hstored
    exact lt_irrefl _ (hfresh .model _ (OrdMap.mem_keys_iff.mpr ⟨stored, hstored⟩))
  constructor
  · intro key stored hstored
    rw [hadded.models, OrdMap.insertNew_of_get?_none hkey, OrdMap.get?_insert] at hstored
    split_ifs at hstored with hsame
    · obtain rfl := Option.some.inj hstored
      rw [hsame, hadded.id]
    · exact h.models key stored hstored
  · rw [hadded.names, hadded.models]
    exact h.names.insertNew hkey hadded.unused
  · rw [hlabels, hadded.versions]
    exact h.labels
  · rw [hindex, hadded.versions]
    exact h.index

theorem EngineState.Indexed.registerVersion (h : s.Indexed) (hfresh : identities.Fresh s)
    (hcoherent : Coherent s) {record : ModelVersionRecord} (hadded : s.VersionAdded c s' record)
    (hmodels : s'.models = s.models) (hnames : s'.modelNames = s.modelNames) : s'.Indexed := by
  have hbelow : ∀ key record, s.versions.get? key = some record → record.version.raw <
      s.nextVersionId := by
    intro key stored hstored
    have hkey : key = versionKey stored.model stored.version :=
      hcoherent.versions key stored hstored
    have hlt : (ofLex key).2 < s.nextVersionId :=
      hfresh .version _ (List.mem_map_of_mem (OrdMap.mem_keys_iff.mpr ⟨stored, hstored⟩))
    rwa [hkey] at hlt
  have hkey : s.versions.get? (versionKey record.model record.version) = none := by
    by_contra hstored
    obtain ⟨stored, hstored⟩ := Option.ne_none_iff_exists'.mp hstored
    have hsame := (versionKey_inj.mp (hcoherent.versions _ stored hstored)).2
    have hlt := hbelow _ stored hstored
    rw [← hsame, hadded.version] at hlt
    exact lt_irrefl _ hlt
  have hnext : s.nextVersionId = record.version.raw := by rw [hadded.version]
  have hunindexed : s.versionIndex.get? record.version.raw = none := by
    by_contra hindexed
    obtain ⟨key, hindexed⟩ := Option.ne_none_iff_exists'.mp hindexed
    obtain ⟨key', stored, hstored, hsame, _⟩ := (h.index _ _).mp hindexed
    have hsame : stored.version.raw = record.version.raw := hsame
    have hlt := hbelow _ stored hstored
    rw [hsame, ← hnext] at hlt
    exact lt_irrefl _ hlt
  constructor
  · rw [hmodels]
    exact h.models
  · rw [hnames, hmodels]
    exact h.names
  · rw [hadded.labels, hadded.versions]
    exact h.labels.insertNew hkey hadded.unused
  · rw [hadded.index, hadded.versions, hnext]
    exact h.index.insertNew hkey hunindexed

/-! ## Recoveries -/

/-- Names that are rebuilt were entered one by one, under their own identities. -/
theorem restoreModelNames_ok {entries : List (UInt64 × ModelRecord)}
    {names restored : OrdMap Text ModelId} :
    DurableState.restoreModelNames entries names = .ok restored ↔
      (∀ e ∈ entries, e.2.id.valid = true ∧ e.1 = e.2.id.raw) ∧
        enter (fun _ record => record.name) (fun _ record => record.id) entries names =
          some restored := by
  induction entries generalizing names with
  | nil =>
    unfold DurableState.restoreModelNames enter
    simp
  | cons e rest ih =>
    obtain ⟨key, record⟩ := e
    unfold DurableState.restoreModelNames enter
    simp only [Validation.bind_ok, Validation.ensure_ok, exists_const, ih, List.forall_mem_cons]
    constructor
    · rintro ⟨hid, hunused, hrest, henter⟩
      refine ⟨⟨hid, hrest⟩, ?_⟩
      rw [if_neg (by simpa using hunused)]
      exact henter
    · rintro ⟨⟨hid, hrest⟩, henter⟩
      split_ifs at henter with hused
      exact ⟨hid, by simpa using hused, hrest, henter⟩

/-- Labels that are rebuilt were entered one by one, of sound records. -/
theorem restoreVersionLabels_ok {entries : List (VersionKey × ModelVersionRecord)}
    {labels restored : OrdMap (UInt64 ×ₗ Text) ModelVersionId} :
    d.restoreVersionLabels entries labels = .ok restored ↔
      (∀ e ∈ entries, d.VersionSound e.1 e.2) ∧
        enter (fun _ record => toLex (record.model.raw, record.label))
          (fun _ record => record.version) entries labels = some restored := by
  induction entries generalizing labels with
  | nil =>
    unfold DurableState.restoreVersionLabels enter
    simp
  | cons e rest ih =>
    obtain ⟨key, record⟩ := e
    unfold DurableState.restoreVersionLabels enter
    simp only [Validation.bind_ok, Validation.ensure_ok, exists_const, ih, List.forall_mem_cons]
    constructor
    · rintro ⟨_, hsound, hunused, hrest, henter⟩
      refine ⟨⟨DurableState.checkVersion_ok.mp hsound, hrest⟩, ?_⟩
      rw [if_neg (by simpa using hunused)]
      exact henter
    · rintro ⟨⟨hsound, hrest⟩, henter⟩
      split_ifs at henter with hused
      exact ⟨(), DurableState.checkVersion_ok.mpr hsound, by simpa using hused, hrest, henter⟩

/-- Records with identities of their own are all indexed. -/
theorem indexes_indexVersions {versions : OrdMap VersionKey ModelVersionRecord}
    (hkeys : ∀ key record, versions.get? key = some record →
      key = versionKey record.model record.version)
    (hapart : ∀ key ∈ versions.keys, ∀ key' ∈ versions.keys,
      (ofLex key).2 = (ofLex key').2 → key = key') :
    Indexes (fun _ record => record.version.raw) (fun key _ => key) (indexVersions versions)
      versions := by
  have hnames : (versions.entries.map fun e => e.2.version.raw).Nodup := by
    refine List.Nodup.map_on ?_ versions.nodup_entries
    intro e he e' he' hsame
    have hrecord := OrdMap.get?_of_mem he
    have hrecord' := OrdMap.get?_of_mem he'
    have hraws : (ofLex e.1).2 = (ofLex e'.1).2 := by
      rw [hkeys _ _ hrecord, hkeys _ _ hrecord']
      exact hsame
    have hkey := hapart _ (OrdMap.mem_keys_iff.mpr ⟨_, hrecord⟩) _
      (OrdMap.mem_keys_iff.mpr ⟨_, hrecord'⟩) hraws
    rw [hkey] at hrecord
    exact Prod.ext hkey (Option.some.inj (hrecord.symm.trans hrecord'))
  obtain ⟨index, hindex⟩ := enter_isSome
    (fun (_ : VersionKey) (record : ModelVersionRecord) => record.version.raw) (fun key _ => key)
    hnames fun e _ => OrdMap.get?_empty _
  have hsame : indexVersions versions = index := foldl_insertNew hindex
  rw [hsame]
  exact indexes_of_enter hindex

theorem EngineState.Indexed.recovered {newEpoch : CoordinatorEpoch}
    {recovered : DurableState.Recovered}
    (hsound : d.Sound c s newEpoch recovered) (hfresh : d.Fresh) :
    (s.applyDurableState d newEpoch recovered).Indexed := by
  obtain ⟨hmodels, hnames⟩ := restoreModelNames_ok.mp hsound.modelNames
  obtain ⟨hversions, hlabels⟩ := restoreVersionLabels_ok.mp hsound.versionLabels
  have hkeys : ∀ key record, d.versions.get? key = some record →
      key = versionKey record.model record.version :=
    fun key record hrecord => (hversions _ (OrdMap.get?_eq_some_iff.mp hrecord)).key
  constructor
  · intro key record hrecord
    have hid := (hmodels _ (OrdMap.get?_eq_some_iff.mp hrecord)).2
    dsimp only at hid
    rw [hid]
  · exact indexes_of_enter hnames
  · exact indexes_of_enter hlabels
  · exact indexes_indexVersions hkeys hfresh.apart

/-! ## Steps -/

/-- An operation that registers neither models nor versions leaves what is looked up. -/
theorem EngineState.Indexed.kept (h : s.Indexed) (hs : s.HoldsFresh) {op : Operation}
    (hnames : op.namesModels = false) (hlabels : op.labelsVersions = false) :
    (EngineState.step c s op).Indexed := by
  have henrolled := step_enrolled (c := c) hs.coherent op
  obtain ⟨hmodels, hmodelNames⟩ := henrolled.models hnames
  obtain ⟨hversionLabels, hversionIndex⟩ := henrolled.versions hlabels
  have himport : op.isImport = false := by
    cases op with
    | importDurableState d newEpoch => cases hnames
    | _ => rfl
  have hforth (key : VersionKey) (record : ModelVersionRecord)
      (hrecord : s.versions.get? key = some record) :=
    step_version_origin (c := c) hs.coherent himport hrecord
  have hback := step_versions_origin (c := c) hs.coherent hs.standing hlabels
  constructor
  · rw [hmodels]
    exact h.models
  · rw [hmodels, hmodelNames]
    exact h.names
  · rw [hversionLabels]
    apply h.labels.congr
    · intro key record hrecord
      obtain ⟨record', hrecord', hsame⟩ := hforth key record hrecord
      exact ⟨record', hrecord', by rw [hsame.model, hsame.label], hsame.version⟩
    · intro key record' hrecord'
      obtain ⟨record, hrecord, hsame⟩ := hback key record' hrecord'
      exact ⟨record, hrecord, by rw [hsame.model, hsame.label], hsame.version⟩
  · rw [hversionIndex]
    apply h.index.congr
    · intro key record hrecord
      obtain ⟨record', hrecord', hsame⟩ := hforth key record hrecord
      exact ⟨record', hrecord', by rw [hsame.version], rfl⟩
    · intro key record' hrecord'
      obtain ⟨record, hrecord, hsame⟩ := hback key record' hrecord'
      exact ⟨record, hrecord, by rw [hsame.version], rfl⟩

/-- An operation keeps the indexes those of their tables. -/
theorem EngineState.Indexed.step (h : s.Indexed) (hs : s.HoldsFresh) {op : Operation}
    (htakes : op.TakesFresh c s) : (EngineState.step c s op).Indexed := by
  have henrolled := step_enrolled (c := c) hs.coherent op
  cases op with
  | registerModel name family provenance =>
    obtain ⟨hlabels, hindex⟩ := henrolled.versions rfl
    rcases registerModel_added (c := c) s name family provenance with hsame | ⟨record, hadded⟩
    · have hstep : EngineState.step c s (.registerModel name family provenance) = s := hsame
      rw [hstep]
      exact h
    · exact h.registerModel hs.fresh hadded hlabels hindex
  | registerVersion request =>
    obtain ⟨hmodels, hnames⟩ := henrolled.models rfl
    rcases registerVersion_added (c := c) s request with hsame | ⟨record, hadded⟩
    · have hstep : EngineState.step c s (.registerVersion request) = s := hsame
      rw [hstep]
      exact h
    · exact h.registerVersion hs.fresh hs.coherent hadded hmodels hnames
  | importDurableState d newEpoch =>
    rcases importDurableState_cases c s d newEpoch with ⟨hsame, _⟩ | ⟨recovered, hsound, heq⟩
    · have hstep : EngineState.step c s (.importDurableState d newEpoch) = s := hsame
      rw [hstep]
      exact h
    · have hstep : EngineState.step c s (.importDurableState d newEpoch) =
          s.applyDurableState d newEpoch recovered := congrArg Prod.fst heq
      rw [hstep]
      exact .recovered hsound (htakes recovered (DurableState.validate_ok.mpr hsound))
  | _ => exact h.kept hs rfl rfl

end LifecycleFabric
