import LifecycleFabric.Engine.Leases
import LifecycleFabric.EvidenceLookup
import LifecycleFabric.Properties.Recording
import LifecycleFabric.Properties.Recoveries

/-!
# The evidence of fenced boots

A fence withdraws what its boot has published. It does not keep the boot from publishing
again, so its evidence is never current exactly as long as no such publication is accepted.
-/

namespace LifecycleFabric

open EngineState Runs

variable {c : EngineConfig} {s : EngineState}

/-! ## Lookups -/

/-- What the engine looks up: `check_evidence` and the gates of promotion and stage entry
take a requirement each, the criteria of a stage a kind of evidence. -/
inductive EngineState.LooksUp (s : EngineState) : EvidenceLookup → Prop
  | requirement (requirement : EvidenceRequirement) (subject : EvidenceSubject) :
      s.LooksUp (s.checkEvidence requirement subject)
  | criterion (criterion : Criterion) (subject : EvidenceSubject) :
      s.LooksUp (s.evidence.resolve { kind := criterion.kind } subject {} false 0
        s.policy.base.maxEvidenceAgeTicks)

/-! ## Withdrawn evidence -/

/-- No lookup of the engine takes a record of the boot of a fenced lease as current. -/
def FencedNotCurrent (s : EngineState) : Prop :=
  ∀ lookup, s.LooksUp lookup → lookup.currentness = .current →
    ∀ record, lookup.record = some record →
      ∀ worker lease, s.workerOf worker = some lease → lease.fenced = true →
        record.boot ≠ lease.boot

/-- No record of the boot of a fenced lease is filed. -/
def FencedNotFiled (s : EngineState) : Prop :=
  ∀ worker lease, s.workerOf worker = some lease → lease.fenced = true →
    ∀ key, ∀ record ∈ s.evidence.bucket key, record.boot ≠ lease.boot

theorem FencedNotFiled.notCurrent (h : FencedNotFiled s) : FencedNotCurrent s := by
  intro lookup hlookup _ record hrecord worker lease hlease hfenced
  cases hlookup with
  | requirement requirement subject =>
    exact h worker lease hlease hfenced _ record (resolve_mem hrecord)
  | criterion criterion subject =>
    exact h worker lease hlease hfenced _ record (resolve_mem hrecord)

/-- Every lease is for a boot. -/
def Booted (s : EngineState) : Prop :=
  ∀ worker lease, s.workerOf worker = some lease → lease.boot.valid = true

/-- An operation publishes nothing under the boot of a fenced lease. -/
def Operation.PublishesUnfenced (s : EngineState) : Operation → Prop
  | .publishEvidence record => s.publishes record = true →
      ∀ worker lease, s.workerOf worker = some lease → lease.fenced = true →
        record.boot ≠ lease.boot
  | _ => True

/-- Whether an operation restarts the engine. -/
def Operation.restarts : Operation → Bool
  | .importDurableState _ _ | .invalidateVolatileState _ => true
  | _ => false

/-- The record that a publication files. -/
def EngineState.filedRecord (s : EngineState) (record : EvidenceRecord) : EvidenceRecord :=
  let record := s.resolveSubjectModel record
  let owner := (s.versionOf record.subject.model record.subject.version).getD {}
  s.assignEvidence { record with subject := completeSubject record.subject owner }

theorem filedRecord_boot (s : EngineState) (record : EvidenceRecord) :
    (s.filedRecord record).boot = record.boot := by
  change (s.resolveSubjectModel record).boot = record.boot
  unfold resolveSubjectModel
  split
  · split <;> rfl
  · rfl

theorem filedRecord_provenance (s : EngineState) (record : EvidenceRecord) :
    (s.filedRecord record).provenance = (s.resolveSubjectModel record).provenance := rfl

theorem publishEvidence_evidence (s : EngineState) (record : EvidenceRecord) :
    (s.publishEvidence record).1.evidence =
      if s.publishes record then (s.evidence.publish (s.filedRecord record)).1
      else s.evidence := by
  unfold publishEvidence
  dsimp only
  split
  · rename_i hnone
    have hrefused : s.publishes record = false := by simp [EngineState.publishes, hnone]
    rw [hrefused]
    rfl
  · rename_i owner howner
    have hfiled : s.filedRecord record = s.assignEvidence
        { s.resolveSubjectModel record with
          subject := completeSubject (s.resolveSubjectModel record).subject owner } := by
      unfold filedRecord
      dsimp only
      rw [howner]
      rfl
    split
    · rename_i hprovenance
      have hrefused : s.publishes record = false := by
        simp [EngineState.publishes, howner, hprovenance]
      rw [hrefused]
      rfl
    · rename_i hprovenance
      have hpublishes : s.publishes record =
          (s.evidence.publish (s.filedRecord record)).2.allowed := by
        rw [EvidenceStore.publish_allowed, hfiled]
        simp [EngineState.publishes, howner, hprovenance]
      rw [hpublishes, hfiled]
      split
      · rename_i hrefused
        rw [if_neg (by simpa using hrefused)]
      · rename_i hallowed
        rw [if_pos (by simpa using hallowed)]

/-- A publication is accepted exactly when it publishes. -/
theorem publishEvidence_allowed (s : EngineState) (record : EvidenceRecord) :
    (s.publishEvidence record).2.1.allowed = s.publishes record := by
  unfold publishEvidence publishes
  dsimp only
  cases s.versionOf (s.resolveSubjectModel record).subject.model
      (s.resolveSubjectModel record).subject.version with
  | none => rfl
  | some owner =>
    dsimp only
    by_cases hprovenance : (s.resolveSubjectModel record).provenance = .unknown
    · rw [if_pos hprovenance, decide_eq_false (not_not.mpr hprovenance), Bool.false_and]
      rfl
    · rw [if_neg hprovenance, decide_eq_true hprovenance, Bool.true_and,
        ← EvidenceStore.publish_allowed]
      cases hallowed : (s.evidence.publish (s.assignEvidence
          { s.resolveSubjectModel record with
            subject := completeSubject (s.resolveSubjectModel record).subject
              owner })).2.allowed with
      | true => rfl
      | false =>
        rw [Bool.not_false, if_pos rfl]
        dsimp only
        rw [Decision.allowed, Decision.outcome_addAll]
        exact hallowed

/-- The store accepts the record of a publication that is accepted. -/
theorem publish_filedRecord {record : EvidenceRecord} (h : s.publishes record = true) :
    (s.evidence.publish (s.filedRecord record)).2.allowed = true := by
  unfold publishes at h
  dsimp only at h
  rw [EvidenceStore.publish_allowed]
  unfold filedRecord
  dsimp only
  cases howner : s.versionOf (s.resolveSubjectModel record).subject.model
      (s.resolveSubjectModel record).subject.version with
  | none =>
    rw [howner] at h
    cases h
  | some owner =>
    rw [howner] at h
    dsimp only at h ⊢
    rw [Bool.and_eq_true] at h
    exact h.2

/-! ## One step -/

theorem registered_fenced {registration : WorkerRegistration} {s' : EngineState}
    (hworkers : s'.workers = s.workers.insert registration.id.raw (registration.lease s))
    {worker : WorkerId} {lease : WorkerLease} (hlease : s'.workerOf worker = some lease)
    (hfenced : lease.fenced = true) : s.workerOf worker = some lease := by
  unfold workerOf at hlease ⊢
  rw [hworkers, OrdMap.get?_insert] at hlease
  split_ifs at hlease
  · obtain rfl := Option.some.inj hlease
    cases hfenced
  · exact hlease

/-- A fence leaves nothing filed under the boot of its lease. -/
theorem fence_notFiled (hbooted : Booted s) (h : FencedNotFiled s) {worker : WorkerId}
    {lease : WorkerLease} (hlease : s.workerOf worker = some lease) (reason : Text) :
    FencedNotFiled (s.fence worker lease reason) := by
  have hevidence : (s.fence worker lease reason).evidence =
      (s.evidence.invalidatePublisherBoot lease.boot).1 :=
    congrArg EngineState.evidence (settleFenced_eq _ _ _)
  intro other held hheld hfenced key record hrecord
  rw [hevidence] at hrecord
  unfold workerOf at hheld
  rw [fence_workers, OrdMap.get?_modify, Option.map_eq_some_iff] at hheld
  obtain ⟨before, hbefore, rfl⟩ := hheld
  split_ifs at hfenced ⊢ with hsame
  · exact EvidenceStore.boot_of_expired (hbooted worker lease hlease) hrecord
  · exact h other before hbefore hfenced key record
      (EvidenceStore.shrinks_expire s.evidence lease.boot key hrecord)

/-- A publication under no fenced boot files none. -/
theorem publish_notFiled (h : FencedNotFiled s) {record : EvidenceRecord}
    (hunfenced : s.publishes record = true → ∀ worker lease, s.workerOf worker = some lease →
      lease.fenced = true → record.boot ≠ lease.boot) :
    FencedNotFiled (step c s (.publishEvidence record)) := by
  have hworkers : (step c s (.publishEvidence record)).workers = s.workers := by
    simp only [step, perform, publishEvidence]
    repeat' split
    all_goals rfl
  have hevidence : (step c s (.publishEvidence record)).evidence = _ :=
    publishEvidence_evidence s record
  intro worker lease hlease hfenced key stored hstored
  unfold workerOf at hlease
  rw [hworkers] at hlease
  rw [hevidence] at hstored
  split_ifs at hstored with hpublishes
  · rcases s.evidence.publish_cases (s.filedRecord record) with
      ⟨hsame, _⟩ | ⟨_, _, _, room, hroom, hbucket⟩
    · rw [hsame] at hstored
      exact h worker lease hlease hfenced key stored hstored
    · rw [hbucket key] at hstored
      split_ifs at hstored with hkey
      · rcases List.mem_append.mp hstored with hold | hnew
        · exact h worker lease hlease hfenced key stored (hroom key hold)
        · rw [List.mem_singleton.mp hnew, filedRecord_boot]
          exact hunfenced hpublishes worker lease hlease hfenced
      · exact h worker lease hlease hfenced key stored (hroom key hstored)
  · exact h worker lease hlease hfenced key stored hstored

theorem step_booted (hs : Coherent s) (hbooted : Booted s) {op : Operation}
    (hop : op.restarts = false) : Booted (step c s op) := by
  intro worker lease hlease
  have hcase := step_leases (c := c) hs op
  unfold workerOf at hlease
  generalize (step c s op).workers = workers at hcase hlease
  cases hcase with
  | kept => exact hbooted worker lease hlease
  | registered registration hadmitted =>
    rw [OrdMap.get?_insert] at hlease
    split_ifs at hlease
    · obtain rfl := Option.some.inj hlease
      exact hadmitted.named.2
    · exact hbooted worker lease hlease
  | fenced fencedWorker boot epoch reason before fenced hbefore _ hfenced =>
    rw [OrdMap.get?_modify, Option.map_eq_some_iff] at hlease
    obtain ⟨stored, hstored, rfl⟩ := hlease
    split_ifs
    · rw [hfenced.2]
      exact hbooted fencedWorker before hbefore
    · exact hbooted worker stored hstored
  | cleared => cases hop
  | recovered => cases hop

theorem step_notFiled (hs : Coherent s) (hbooted : Booted s) (h : FencedNotFiled s)
    {op : Operation} (hop : op.restarts = false) (hunfenced : op.PublishesUnfenced s) :
    FencedNotFiled (step c s op) := by
  have hframed := step_framed (c := c) hs op
  have hcase := step_leases (c := c) hs op
  cases op with
  | publishEvidence record => exact publish_notFiled h hunfenced
  | fenceWorker worker boot epoch reason =>
    rcases fenceWorker_cases s worker boot epoch reason with hsame | ⟨lease, hlease, _, hfence⟩
    · have hstep : step c s (.fenceWorker worker boot epoch reason) = s := hsame
      rw [hstep]
      exact h
    · have hstep : step c s (.fenceWorker worker boot epoch reason) =
          s.fence worker lease reason := hfence
      rw [hstep]
      exact fence_notFiled hbooted h hlease reason
  | registerWorker registration =>
    have hevidence := hframed.evidence rfl
    intro worker lease hlease hfenced key record hrecord
    refine h worker lease ?_ hfenced key record (hevidence key hrecord)
    rcases registerWorker_cases (c := c) s registration with ⟨_, hsame⟩ | ⟨_, hworkers⟩
    · have hstep : step c s (.registerWorker registration) = s := hsame
      rw [hstep] at hlease
      exact hlease
    · exact registered_fenced hworkers hlease hfenced
  | importDurableState => cases hop
  | invalidateVolatileState => cases hop
  | _ =>
    have hevidence := hframed.evidence rfl
    intro worker lease hlease hfenced key record hrecord
    refine h worker lease ?_ hfenced key record (hevidence key hrecord)
    unfold workerOf at hlease ⊢
    rw [← hframed.leases rfl]
    exact hlease

theorem step_marked (hs : Coherent s) (h : s.evidence.Marked) {op : Operation}
    (hop : op.restarts = false) : (step c s op).evidence.Marked := by
  have hcase := step_cases (c := c) hs op
  generalize step c s op = s' at hcase ⊢
  cases hcase with
  | aside haside =>
    exact Runs.chain_preserves (fun _ _ hchange => hchange.marked) haside.evidence h
  | chain p _ _ _ hchain =>
    exact Runs.chain_preserves (fun _ _ hchange => hchange.marked) hchain.evidence h
  | recover => cases hop

/-- An accepted publication is of known provenance and admitted by the store. -/
theorem admitted_of_publishes {record : EvidenceRecord} (hpublishes : s.publishes record = true) :
    s.evidence.admits (s.filedRecord record) = true ∧
      (s.filedRecord record).provenance ≠ .unknown := by
  unfold EngineState.publishes at hpublishes
  dsimp only at hpublishes
  rw [filedRecord_provenance]
  unfold filedRecord
  dsimp only
  cases howner : s.versionOf (s.resolveSubjectModel record).subject.model
      (s.resolveSubjectModel record).subject.version with
  | none =>
    rw [howner] at hpublishes
    cases hpublishes
  | some owner =>
    rw [howner] at hpublishes
    rw [Option.getD_some]
    simp only [Bool.and_eq_true, decide_eq_true_eq] at hpublishes
    exact ⟨hpublishes.2, hpublishes.1⟩

theorem version_of_admits {store : EvidenceStore} {record : EvidenceRecord}
    (hadmits : store.admits record = true) : record.subject.version.valid = true := by
  unfold EvidenceStore.admits at hadmits
  simp only [Bool.and_eq_true] at hadmits
  exact hadmits.1.1.1.1.1

/-- What an accepted publication files is the newest record of its bucket. -/
theorem published_newest (hmarked : s.evidence.Marked) {record : EvidenceRecord}
    (hpublishes : s.publishes record = true) :
    ∃ older, (step c s (.publishEvidence record)).evidence.bucket
        (EvidenceStore.makeKey (s.filedRecord record).subject (s.filedRecord record).kind) =
          older ++ [s.filedRecord record] ∧
      ∀ old ∈ older, old.generation ≠ (s.filedRecord record).generation := by
  have hevidence : (step c s (.publishEvidence record)).evidence =
      (s.evidence.publish (s.filedRecord record)).1 := by
    refine (publishEvidence_evidence s record).trans ?_
    rw [if_pos hpublishes]
  rcases s.evidence.publish_cases (s.filedRecord record) with
    ⟨_, hrefused⟩ | ⟨hvalid, hpast, _, room, hroom, hbucket⟩
  · rw [EvidenceStore.publish_allowed, (admitted_of_publishes hpublishes).1] at hrefused
    cases hrefused
  · have hnewer := EvidenceStore.watermark_lt hvalid hpast
    have hown := hbucket (EvidenceStore.makeKey (s.filedRecord record).subject
      (s.filedRecord record).kind)
    rw [if_pos rfl] at hown
    refine ⟨_, hevidence ▸ hown, ?_⟩
    intro old hold
    have hle := hmarked _ old (hroom _ hold)
    exact (lt_of_le_of_lt hle hnewer).ne

/-- What an accepted publication files is current for its own subject at once. -/
theorem published_current (hmarked : s.evidence.Marked) {record : EvidenceRecord}
    (hpublishes : s.publishes record = true) :
    ∃ lookup, (step c s (.publishEvidence record)).LooksUp lookup ∧
      lookup.currentness = .current ∧ lookup.record = some (s.filedRecord record) := by
  obtain ⟨hadmits, hprovenance⟩ := admitted_of_publishes hpublishes
  obtain ⟨older, hbucket, hnewest⟩ := published_newest (c := c) hmarked hpublishes
  have hcurrent := (resolve_newest_iff { kind := (s.filedRecord record).kind }
    (version_of_admits hadmits) hbucket hnewest hprovenance
    (step c s (.publishEvidence record)).policy.base.maxEvidenceAgeTicks).mpr
      ⟨fun _ => rfl, fun h => absurd h Bool.false_ne_true⟩
  refine ⟨_, .requirement { kind := (s.filedRecord record).kind } (s.filedRecord record).subject,
    ?_, ?_⟩
  · rw [checkEvidence, hcurrent]
  · rw [checkEvidence, hcurrent]

/-- After a publication under the boot of a fenced lease, a lookup takes it as current. -/
theorem unfenced_of_notCurrent (hmarked : s.evidence.Marked) {op : Operation}
    (h : FencedNotCurrent (step c s op)) (hs : Coherent s) : op.PublishesUnfenced s := by
  cases op with
  | publishEvidence record =>
    intro hpublishes worker lease hlease hfenced
    obtain ⟨lookup, hlookup, hcurrent, hrecord⟩ := published_current (c := c) hmarked hpublishes
    have hworkers := (step_framed (c := c) hs (.publishEvidence record)).leases rfl
    have hheld : (step c s (.publishEvidence record)).workerOf worker = some lease := by
      unfold workerOf at hlease ⊢
      rw [hworkers]
      exact hlease
    have hother := h lookup hlookup hcurrent _ hrecord worker lease hheld hfenced
    rwa [filedRecord_boot] at hother
  | _ => trivial

/-! ## Runs -/

/-- Along a run without restarts, no lookup takes evidence of the boot of a fenced lease as
current exactly when none is published while the lease is fenced. -/
theorem fenced_not_current_iff {ops : List Operation} (hops : ∀ op ∈ ops, op.restarts = false) :
    Always (step c) FencedNotCurrent (init c) ops ↔
      Along (step c) (fun s op => op.PublishesUnfenced s) (init c) ops := by
  have hstart : Coherent (init c) ∧ Booted (init c) ∧ (init c).evidence.Marked := by
    refine ⟨coherent_init c, ?_, ?_⟩
    · intro worker lease hlease
      cases hlease
    · intro key record hrecord
      cases hrecord
  have hkept : ∀ t op, Coherent t ∧ Booted t ∧ t.evidence.Marked → op.restarts = false →
      Coherent (step c t op) ∧ Booted (step c t op) ∧ (step c t op).evidence.Marked := by
    rintro t op ⟨ht, hbooted, hmarked⟩ hop
    exact ⟨(step_cases ht op).coherent ht, step_booted ht hbooted hop, step_marked ht hmarked hop⟩
  constructor
  · refine Runs.along_of_always (step c) hkept ?_ hops hstart
    rintro t op ⟨ht, _, hmarked⟩ _ h
    exact unfenced_of_notCurrent hmarked h ht
  · intro halong
    have hboth : Along (step c) (fun s op => op.restarts = false ∧ op.PublishesUnfenced s)
        (init c) ops := (Runs.along_and (step c)).mpr ⟨along_of_forall (step c) hops, halong⟩
    have hfiled := Runs.always_of_along (step c)
      (P := fun t => (Coherent t ∧ Booted t ∧ t.evidence.Marked) ∧ FencedNotFiled t)
      (fun t op ht hop => ⟨hkept t op ht.1 hop.1,
        step_notFiled ht.1.1 ht.1.2.1 ht.2 hop.1 hop.2⟩) hboth
      ⟨hstart, fun worker lease hlease => by cases hlease⟩
    intro before hbefore
    exact (hfiled before hbefore).2.notCurrent

/-! ### A publication after the fence -/

/-- The boot of a worker is fenced, and publishes a reading. -/
def publishedAfterFence : List Operation :=
  [.registerModel [109] [] .synthetic,
    .registerVersion
      { model := ⟨1⟩, label := [49]
        artifact := { setId := ⟨1⟩, generation := ⟨1⟩, digest := [97] } },
    .registerWorker { id := ⟨1⟩, boot := ⟨7⟩ },
    .fenceWorker ⟨1⟩ ⟨7⟩ {} [],
    .publishEvidence
      { kind := .healthCheck, subject := { version := ⟨1⟩ }, provenance := .real, worker := ⟨1⟩
        boot := ⟨7⟩ }]

theorem fenced_not_current_witness :
    Always (step {}) FencedNotCurrent (init {}) publishedAfterFence ↔
      Along (step {}) (fun s op => op.PublishesUnfenced s) (init {}) publishedAfterFence :=
  fenced_not_current_iff (by decide)

/-- The reading of the fenced boot is current. -/
theorem fenced_boot_current :
    ¬Always (step {}) FencedNotCurrent (init {}) publishedAfterFence := by
  intro h
  have hlookup : (((run (step {}) (init {}) publishedAfterFence).checkEvidence
      { kind := .healthCheck, requireExactSubject := false }
      { model := ⟨1⟩, version := ⟨1⟩ }).currentness = .current) ∧
      (((run (step {}) (init {}) publishedAfterFence).checkEvidence
        { kind := .healthCheck, requireExactSubject := false }
        { model := ⟨1⟩, version := ⟨1⟩ }).record.map EvidenceRecord.boot) = some ⟨7⟩ := by
    decide +kernel
  have hfenced : ((run (step {}) (init {}) publishedAfterFence).workerOf ⟨1⟩).map
      (fun lease => (lease.fenced, lease.boot)) = some (true, ⟨7⟩) := by
    decide +kernel
  obtain ⟨hcurrent, hrecord⟩ := hlookup
  obtain ⟨record, hrecord, hboot⟩ := Option.map_eq_some_iff.mp hrecord
  obtain ⟨lease, hlease, hfields⟩ := Option.map_eq_some_iff.mp hfenced
  simp only [Prod.mk.injEq] at hfields
  refine h publishedAfterFence List.prefix_rfl _ (.requirement _ _) hcurrent record hrecord ⟨1⟩
    lease hlease hfields.1 ?_
  exact hboot.trans hfields.2.symm

end LifecycleFabric
