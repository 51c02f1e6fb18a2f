import LifecycleFabric.StateFile.Bounds
import LifecycleFabric.StateFile.RecordBounds

/-!
# What is read of a written section

A section is read onto a state in which it is still empty. Its records are stored under the
keys that go with them, so the maps of the state must hold them under these.
-/

namespace LifecycleFabric.StateFile

open ByteCodec Wire

variable {κ ν : Type} [LinearOrder κ] {limits : DecodeLimits} {d start : DurableState}

/-! ## Maps -/

/-- Entries under distinct new keys are all stored. -/
theorem addEntries_eq {entries : List (κ × ν)} {stored : OrdMap κ ν}
    (hnodup : (entries.map Prod.fst).Nodup) (hfresh : ∀ e ∈ entries, stored.get? e.1 = none) :
    ∃ m, addEntries entries stored = some m ∧ ∀ key,
      m.get? key = ((entries.find? fun e => decide (e.1 = key)).map Prod.snd).or
        (stored.get? key) := by
  induction entries generalizing stored with
  | nil => exact ⟨stored, rfl, fun _ => rfl⟩
  | cons e entries ih =>
    obtain ⟨key, value⟩ := e
    rw [List.map_cons, List.nodup_cons] at hnodup
    have hnew : stored.contains key = false :=
      OrdMap.contains_eq_false_iff.mpr (hfresh _ List.mem_cons_self)
    have hlater : ∀ e ∈ entries, (stored.insert key value).get? e.1 = none := by
      intro other hother
      have hne : other.1 ≠ key := by
        rintro rfl
        exact hnodup.1 (List.mem_map.mpr ⟨other, hother, rfl⟩)
      rw [OrdMap.get?_insert_of_ne _ _ hne]
      exact hfresh other (List.mem_cons_of_mem _ hother)
    obtain ⟨m, hm, hget⟩ := ih hnodup.2 hlater
    refine ⟨m, ?_, ?_⟩
    · rw [addEntries, hnew, if_neg Bool.false_ne_true]
      exact hm
    · intro other
      rw [hget, List.find?_cons]
      by_cases hkey : key = other
      · subst hkey
        have hnone : (entries.find? fun e => decide (e.1 = key)) = none := by
          rw [List.find?_eq_none]
          intro e he hsame
          exact hnodup.1 (List.mem_map.mpr ⟨e, he, of_decide_eq_true hsame⟩)
        rw [hnone, decide_eq_true rfl, OrdMap.get?_insert_self]
        rfl
      · rw [decide_eq_false hkey, OrdMap.get?_insert_of_ne _ _ (Ne.symm hkey)]

/-- The entries of a map make it up. -/
theorem addEntries_entries (m : OrdMap κ ν) : addEntries m.entries OrdMap.empty = some m := by
  obtain ⟨m', hm', hget⟩ := addEntries_eq m.nodup_keys fun e _ => OrdMap.get?_empty e.1
  rw [hm']
  refine congrArg some (OrdMap.ext_get? ?_)
  intro key
  rw [hget, OrdMap.get?_empty, Option.or_none]
  rfl

theorem foldl_insert_of_addEntries {entries : List (κ × ν)} {stored m : OrdMap κ ν}
    (h : addEntries entries stored = some m) :
    entries.foldl (fun stored e => stored.insert e.1 e.2) stored = m := by
  induction entries generalizing stored with
  | nil => exact Option.some.inj h
  | cons e entries ih =>
    rw [addEntries] at h
    split_ifs at h
    exact ih h

/-- Records under the keys that go with them are the entries of their map. -/
theorem map_values_eq_entries {m : OrdMap κ ν} {key : ν → κ}
    (hkeys : ∀ k record, m.get? k = some record → key record = k) :
    (m.values.map fun record => (key record, record)) = m.entries := by
  rw [OrdMap.values, List.map_map]
  have hsame : ∀ e ∈ m.entries, ((fun record => (key record, record)) ∘ Prod.snd) e = e :=
    fun e he => Prod.ext (hkeys e.1 e.2 (OrdMap.get?_of_mem he)) rfl
  rw [List.map_congr_left hsame, List.map_id']

/-- The keys of a set are the entries of its map. -/
theorem map_keys_eq_entries (m : OrdMap κ Unit) : (m.keys.map (·, ())) = m.entries := by
  rw [OrdMap.keys, List.map_map]
  exact List.map_id' m.entries

/-! ## Parts of sections -/

theorem reads_given {α : Type} (a : α) : Reads (given (some a)) [] True a where
  accepts _ _ := rfl
  refuses h := absurd trivial h

/-- The records of a section are read back. -/
theorem reads_all {α : Type} {read : Reader α} {write : α → Bytes} {fits : α → Prop}
    {records : List α} (h : ∀ r ∈ records, Reads read (write r) (fits r) r) :
    Reads (many read records.length) (writeAll write records) (∀ r ∈ records, fits r) records := by
  have hread : Reads (many read records.length) (writeAll write records)
      (∀ r ∈ records, fits r) (records.map fun r => r) :=
    Reads.many h
  rwa [List.map_id'] at hread

/-- The records of a map are read back and stored. -/
theorem reads_records {read : Reader ν} {write : ν → Bytes} {fits : ν → Prop} {key : ν → κ}
    {m : OrdMap κ ν} (h : ∀ r ∈ m.values, Reads read (write r) (fits r) r)
    (hkeys : ∀ k record, m.get? k = some record → key record = k) (limit : ℕ) :
    Reads (readRecords limit m.size read key OrdMap.empty) (writeAll write m.values)
      (m.size ≤ limit ∧ ∀ r ∈ m.values, fits r) m := by
  have hsize : m.values.length = m.size := List.length_map _
  have hgiven : Reads (given (addEntries (m.values.map fun record => (key record, record))
      OrdMap.empty)) [] True m := by
    rw [map_values_eq_entries hkeys, addEntries_entries]
    exact reads_given m
  have hmany := (reads_all h).bind (f := fun records =>
    given (addEntries (records.map fun record => (key record, record)) OrdMap.empty))
    fun _ => hgiven
  rw [hsize, List.append_nil] at hmany
  exact ((Reads.check (m.size ≤ limit)).bind (f := fun _ => do
    let records ← many read m.size
    given (addEntries (records.map fun record => (key record, record)) OrdMap.empty))
    fun _ => hmany).congr (by simp)

/-- A set of numbers is read back. -/
theorem reads_set {read : Reader κ} {write : κ → Bytes} {m : OrdMap κ Unit}
    (h : ∀ key, Reads read (write key) True key) (hwrite : ∀ key, 0 < (write key).length)
    (limit : ℕ) :
    Reads (counted limit read) (putCounted write m.keys) (Fits limit m.size) m.keys := by
  have hsize : m.keys.length = m.size := List.length_map _
  have hkey : ∀ key ∈ m.keys, Reads read (write key) True key := fun key _ => h key
  have hread := Reads.counted hkey hwrite limit
  rw [hsize] at hread
  exact hread.congr (by simp)

/-- A check before the fields of a section writes nothing. -/
theorem reads_after_check {α : Type} {condition : Prop} [Decidable condition] {r : Reader α}
    {w : Bytes} {p : Prop} {a : α} (h : Reads r w p a) :
    Reads (do check condition; r) w (condition ∧ p) a :=
  (Reads.check condition).bind fun _ => h

/-- What is read is put into a state. -/
theorem reads_into {α β : Type} {r : Reader α} {w : Bytes} {p : Prop} {a : α} (h : Reads r w p a)
    (store : α → β) : Reads (do let found ← r; pure (store found)) w p (store a) := by
  have hread := h.bind (f := fun found => pure (store found)) fun _ => Reads.pure (store a)
  rw [List.append_nil] at hread
  exact hread.congr (by simp)

/-! ## Sections -/

theorem reads_header :
    Reads (readSection limits 1 1 start) (writeHeader d) True
      { start with
        formatVersion := d.formatVersion, generation := d.generation, epoch := d.epoch
        sequence := d.sequence } := by
  have hread : Reads (readSection limits 1 1 start) (writeHeader d) _
      { start with
        formatVersion := d.formatVersion, generation := d.generation, epoch := d.epoch
        sequence := d.sequence } :=
    reads_after_check <| .next (reads_getU16 _) <| .next (reads_getId _) <|
    .next (reads_getId _) <| .next (reads_getId _) <| .done _
  exact hread.congr (by simp)

/-- The overrides are stored under their scopes, and the scopes in their order. -/
theorem reads_scopes (hoverrides : start.policyOverrides = OrdMap.empty)
    (hscopes : start.scopes = [])
    (hkeys : ∀ key o, d.policyOverrides.get? key = some o → o.scope.raw = key) :
    Reads (readSection limits 2 d.scopes.length start) (writeScopes d)
      (d.scopes.length ≤ limits.maxScopes ∧
        (Fits limits.maxScopes d.policyOverrides.size ∧
          ∀ o ∈ d.policyOverrides.values, withinOverride o) ∧
        ∀ scope ∈ d.scopes, withinScope limits scope)
      { start with
        rootScope := d.rootScope, policyOverrides := d.policyOverrides, scopes := d.scopes } := by
  have hsize : d.policyOverrides.values.length = d.policyOverrides.size := List.length_map _
  have hput (o : ScopePolicyOverride) : 0 < (writeOverride o).length := by simp [writeOverride]
  have hcounted : Reads (counted limits.maxScopes readOverride)
      (putCounted writeOverride d.policyOverrides.values) _ d.policyOverrides.values :=
    Reads.counted (fun o _ => reads_override o) hput _
  have hmany : Reads (many (readScope limits) d.scopes.length) (writeAll writeScope d.scopes) _
      d.scopes :=
    reads_all fun scope _ => reads_scope scope
  have hstored : d.policyOverrides.values.foldl (fun stored o => stored.insert o.scope.raw o)
      start.policyOverrides = d.policyOverrides := by
    have hall := foldl_insert_of_addEntries (addEntries_entries d.policyOverrides)
    rw [← map_values_eq_entries hkeys, List.foldl_map] at hall
    rw [hoverrides]
    exact hall
  have hread : Reads (readSection limits 2 d.scopes.length start) (writeScopes d) _
      { start with
        rootScope := d.rootScope
        policyOverrides := d.policyOverrides.values.foldl
          (fun stored o => stored.insert o.scope.raw o) start.policyOverrides
        scopes := start.scopes ++ d.scopes } :=
    reads_after_check <| .next (reads_getId _) <| .field hcounted fun _ =>
    .field hmany fun _ => .done _
  rw [hstored, hscopes, List.nil_append] at hread
  exact hread.congr (by rw [hsize]; simp)

theorem reads_policySection (hkinds : start.basePolicy.promotableScopeKinds = [])
    (hrequired : start.basePolicy.globallyRequiredEvidence = []) :
    Reads (readSection limits 3 1 start) (writePolicy d.basePolicy)
      (withinPolicy limits d.basePolicy) { start with basePolicy := d.basePolicy } := by
  have hread : Reads (readSection limits 3 1 start) (writePolicy d.basePolicy) _ _ :=
    reads_after_check <| reads_into (reads_policy d.basePolicy) fun policy =>
      { start with
        basePolicy := { policy with
          promotableScopeKinds :=
            start.basePolicy.promotableScopeKinds ++ policy.promotableScopeKinds
          globallyRequiredEvidence :=
            start.basePolicy.globallyRequiredEvidence ++ policy.globallyRequiredEvidence } }
  rw [hkinds, hrequired, List.nil_append, List.nil_append] at hread
  exact hread.congr (by simp)

theorem reads_models (hempty : start.models = OrdMap.empty)
    (hkeys : ∀ key record, d.models.get? key = some record → record.id.raw = key) :
    Reads (readSection limits 4 d.models.size start) (writeAll writeModel d.models.values)
      (d.models.size ≤ limits.maxModels ∧ ∀ r ∈ d.models.values, withinModel limits r)
      { start with models := d.models } := by
  have hrecord : ∀ r ∈ d.models.values,
      Reads (readModel limits) (writeModel r) (withinModel limits r) r := fun r _ => reads_model r
  have hread := reads_records hrecord hkeys limits.maxModels
  rw [← hempty] at hread
  exact reads_into hread fun models => { start with models }

theorem reads_versions (hempty : start.versions = OrdMap.empty)
    (hkeys : ∀ key record, d.versions.get? key = some record →
      versionKey record.model record.version = key) :
    Reads (readSection limits 5 d.versions.size start) (writeAll writeVersion d.versions.values)
      (d.versions.size ≤ limits.maxVersions ∧ ∀ r ∈ d.versions.values, withinVersion limits r)
      { start with versions := d.versions } := by
  have hrecord : ∀ r ∈ d.versions.values,
      Reads (readVersion limits) (writeVersion r) (withinVersion limits r) r :=
    fun r _ => reads_version r
  have hread := reads_records hrecord hkeys
    limits.maxVersions
  rw [← hempty] at hread
  exact reads_into hread fun versions => { start with versions }

theorem reads_compatibilityFacts (hempty : start.compatibility = OrdMap.empty)
    (hkeys : ∀ key fact, d.compatibility.get? key = some fact →
      CompatibilityRegistry.keyOf fact.version fact.environmentKey = key) :
    Reads (readSection limits 6 d.compatibility.size start)
      (writeAll writeFact d.compatibility.values)
      (d.compatibility.size ≤ limits.maxCompatibilityFacts ∧
        ∀ f ∈ d.compatibility.values, withinFact limits f)
      { start with compatibility := d.compatibility } := by
  have hrecord : ∀ f ∈ d.compatibility.values,
      Reads (readFact limits) (writeFact f) (withinFact limits f) f := fun f _ => reads_fact f
  have hread := reads_records hrecord hkeys
    limits.maxCompatibilityFacts
  rw [← hempty] at hread
  exact reads_into hread fun compatibility => { start with compatibility }

theorem reads_plans (hempty : start.rollouts = OrdMap.empty)
    (hkeys : ∀ key plan, d.rollouts.get? key = some plan → plan.id.raw = key)
    (hproper : ∀ plan ∈ d.rollouts.values, properPlan plan) :
    Reads (readSection limits 7 d.rollouts.size start) (writeAll writePlan d.rollouts.values)
      (d.rollouts.size ≤ limits.maxRollouts ∧ ∀ plan ∈ d.rollouts.values, withinPlan limits plan)
      { start with rollouts := d.rollouts } := by
  have hplan : ∀ plan ∈ d.rollouts.values,
      Reads (readPlan limits) (writePlan plan) (withinPlan limits plan) plan :=
    fun plan hplan => reads_plan (hproper plan hplan)
  have hread := reads_records hplan hkeys limits.maxRollouts
  rw [← hempty] at hread
  exact reads_into hread fun rollouts => { start with rollouts }

/-- Live bindings of a scope, under the scope of the first. -/
def properGrants (key : UInt64) (bindings : List AuthorityBinding) : Prop :=
  (∃ b ∈ bindings.head?, b.scope.raw = key) ∧ ∀ b ∈ bindings, b.live = true

def withinGrants (limits : DecodeLimits) (bindings : List AuthorityBinding) : Prop :=
  Fits limits.maxAuthorityBindings bindings.length ∧ ∀ b ∈ bindings, withinGrant b

instance (limits : DecodeLimits) (bindings : List AuthorityBinding) :
    Decidable (withinGrants limits bindings) :=
  inferInstanceAs (Decidable (_ ∧ _))

/-- Bindings under the scopes of the first of each list are stored as they are. -/
theorem addGrants_eq {entries : List (UInt64 × List AuthorityBinding)}
    {stored : OrdMap UInt64 (List AuthorityBinding)}
    (h : ∀ e ∈ entries, ∃ b ∈ e.2.head?, b.scope.raw = e.1) :
    addGrants (entries.map Prod.snd) stored = addEntries entries stored := by
  induction entries generalizing stored with
  | nil => rfl
  | cons e entries ih =>
    obtain ⟨key, bindings⟩ := e
    obtain ⟨b, hb, hkey⟩ := h _ List.mem_cons_self
    cases bindings with
    | nil => cases hb
    | cons first rest =>
      obtain rfl := Option.some.inj hb
      rw [List.map_cons, addGrants, addEntries, hkey]
      split_ifs
      · rfl
      · exact ih fun e he => h e (List.mem_cons_of_mem _ he)

theorem reads_authority (hempty : start.authority = OrdMap.empty)
    (hproper : ∀ key bindings, d.authority.get? key = some bindings → properGrants key bindings) :
    Reads (readSection limits 8 d.authority.size start) (writeAll writeGrants d.authority.values)
      (∀ bindings ∈ d.authority.values, withinGrants limits bindings)
      { start with authority := d.authority } := by
  have hsize : d.authority.values.length = d.authority.size := List.length_map _
  have hput (b : AuthorityBinding) : 0 < (writeGrant b).length := by simp [writeGrant]
  have hgroups : Reads (many (counted limits.maxAuthorityBindings readGrant)
      d.authority.values.length) (writeAll writeGrants d.authority.values)
      (∀ bindings ∈ d.authority.values, withinGrants limits bindings) d.authority.values := by
    refine reads_all fun bindings hbindings => ?_
    obtain ⟨key, hkey⟩ := OrdMap.mem_values_iff.mp hbindings
    exact Reads.counted (fun b hb => reads_grant ((hproper key bindings hkey).2 b hb)) hput _
  have hstored : addGrants d.authority.values start.authority = some d.authority := by
    rw [hempty, ← addEntries_entries d.authority]
    exact addGrants_eq fun e he => (hproper e.1 e.2 (OrdMap.get?_of_mem he)).1
  have hgiven : Reads (given (addGrants d.authority.values start.authority)) [] True
      d.authority := by
    rw [hstored]
    exact reads_given d.authority
  have hread := hgroups.bind (f := fun groups => do
    let authority ← given (addGrants groups start.authority)
    pure { start with authority }) fun _ =>
      reads_into hgiven fun authority => { start with authority }
  rw [hsize, List.append_nil] at hread
  exact hread.congr (by simp)

theorem reads_leases (hempty : start.workerLeases = OrdMap.empty)
    (hkeys : ∀ key lease, d.workerLeases.get? key = some lease → lease.id.raw = key) :
    Reads (readSection limits 9 d.workerLeases.size start)
      (writeAll writeLease d.workerLeases.values)
      (d.workerLeases.size ≤ limits.maxWorkers ∧
        ∀ lease ∈ d.workerLeases.values, withinLease limits lease)
      { start with workerLeases := d.workerLeases } := by
  have hrecord : ∀ lease ∈ d.workerLeases.values,
      Reads (readLease limits) (writeLease lease) (withinLease limits lease) lease :=
    fun lease _ => reads_lease lease
  have hread := reads_records hrecord hkeys
    limits.maxWorkers
  rw [← hempty] at hread
  exact reads_into hread fun workerLeases => { start with workerLeases }

theorem reads_evidenceRecords (hempty : start.evidence = []) :
    Reads (readSection limits 10 d.evidence.length start) (writeAll writeEvidence d.evidence)
      (d.evidence.length ≤ limits.maxEvidence ∧ ∀ r ∈ d.evidence, withinEvidence limits r)
      { start with evidence := d.evidence } := by
  have hrecord : ∀ r ∈ d.evidence,
      Reads (readEvidence limits) (writeEvidence r) (withinEvidence limits r) r :=
    fun r _ => reads_evidence r
  have hread : Reads (readSection limits 10 d.evidence.length start)
      (writeAll writeEvidence d.evidence) _ _ :=
    reads_after_check <| reads_into (reads_all hrecord)
      fun evidence => { start with evidence := start.evidence ++ evidence }
  rw [hempty, List.nil_append] at hread
  exact hread

theorem reads_attempts (hempty : start.unsettledAttempts = OrdMap.empty)
    (hkeys : ∀ key a, d.unsettledAttempts.get? key = some a → a.id.raw = key) :
    Reads (readSection limits 11 d.unsettledAttempts.size start)
      (writeAll writeAttempt d.unsettledAttempts.values)
      (d.unsettledAttempts.size ≤ limits.maxAttempts ∧
        ∀ a ∈ d.unsettledAttempts.values, withinAttempt limits a)
      { start with unsettledAttempts := d.unsettledAttempts } := by
  have hrecord : ∀ a ∈ d.unsettledAttempts.values,
      Reads (readAttempt limits) (writeAttempt a) (withinAttempt limits a) a :=
    fun a _ => reads_attempt a
  have hread := reads_records hrecord hkeys
    limits.maxAttempts
  rw [← hempty] at hread
  exact reads_into hread fun unsettledAttempts => { start with unsettledAttempts }

theorem reads_committed (entry : UInt64 ×ₗ UInt64) :
    Reads readCommitted (writeCommitted entry) True entry :=
  .next (reads_getU64 _) <| .next (reads_getU64 _) <| .done _

theorem reads_commits (hpromotions : start.committedPromotions = OrdMap.empty)
    (hrollbacks : start.committedRollbacks = OrdMap.empty) :
    Reads (readSection limits 12 2 start) (writeCommits d)
      (Fits (sizeWord (limits.maxModels * 64)) d.committedPromotions.size ∧
        Fits (sizeWord (limits.maxModels * 64)) d.committedRollbacks.size)
      { start with
        committedPromotions := d.committedPromotions
        committedRollbacks := d.committedRollbacks } := by
  have hpromoted : Reads (given (addEntries (d.committedPromotions.keys.map (·, ()))
      start.committedPromotions)) [] True d.committedPromotions := by
    rw [hpromotions, map_keys_eq_entries, addEntries_entries]
    exact reads_given _
  have hrolledBack : Reads (given (addEntries (d.committedRollbacks.keys.map (·, ()))
      start.committedRollbacks)) [] True d.committedRollbacks := by
    rw [hrollbacks, map_keys_eq_entries, addEntries_entries]
    exact reads_given _
  have hread : Reads (readSection limits 12 2 start)
      [putCounted putU64 d.committedPromotions.keys, [],
        putCounted writeCommitted d.committedRollbacks.keys, []].flatten _
      { start with
        committedPromotions := d.committedPromotions
        committedRollbacks := d.committedRollbacks } :=
    reads_after_check <|
    .field (reads_set reads_getU64 (fun _ => by simp) _) fun _ => .next hpromoted <|
    .field (reads_set reads_committed (fun _ => by simp [writeCommitted]) _) fun _ =>
    .next hrolledBack <| .done _
  have hbytes : [putCounted putU64 d.committedPromotions.keys, [],
      putCounted writeCommitted d.committedRollbacks.keys, []].flatten = writeCommits d := by
    simp [writeCommits]
  rw [hbytes] at hread
  exact hread.congr (by simp)

/-- The allocators that a file must hold are not zero. -/
def withinAllocators (d : DurableState) : Prop :=
  d.nextModelId ≠ 0 ∧ d.nextVersionId ≠ 0 ∧ d.nextRolloutId ≠ 0 ∧ d.nextPromotionId ≠ 0 ∧
    d.nextRollbackId ≠ 0 ∧ d.nextAttemptId ≠ 0 ∧ d.nextWorkerId ≠ 0 ∧ d.nextEvidenceId ≠ 0 ∧
    d.nextCompatibilityGeneration ≠ 0

instance (d : DurableState) : Decidable (withinAllocators d) :=
  inferInstanceAs (Decidable (_ ∧ _))

theorem reads_allocators :
    Reads (readSection limits 13 13 start) (writeAllocators d) (withinAllocators d)
      { start with
        nextModelId := d.nextModelId, nextVersionId := d.nextVersionId
        nextRolloutId := d.nextRolloutId, nextStageId := d.nextStageId
        nextCohortId := d.nextCohortId, nextPromotionId := d.nextPromotionId
        nextRollbackId := d.nextRollbackId, nextAttemptId := d.nextAttemptId
        nextWorkerId := d.nextWorkerId, nextEvidenceId := d.nextEvidenceId
        nextEvidenceGeneration := d.nextEvidenceGeneration
        nextCompatibilityGeneration := d.nextCompatibilityGeneration } := by
  have hread : Reads (readSection limits 13 13 start) (writeAllocators d) _
      { start with
        nextModelId := d.nextModelId, nextVersionId := d.nextVersionId
        nextRolloutId := d.nextRolloutId, nextStageId := d.nextStageId
        nextCohortId := d.nextCohortId, nextPromotionId := d.nextPromotionId
        nextRollbackId := d.nextRollbackId, nextAttemptId := d.nextAttemptId
        nextWorkerId := d.nextWorkerId, nextEvidenceId := d.nextEvidenceId
        nextEvidenceGeneration := d.nextEvidenceGeneration
        nextCompatibilityGeneration := d.nextCompatibilityGeneration } :=
    reads_after_check <| .next (reads_getU64 _) <| .next (reads_getU64 _) <|
    .next (reads_getU64 _) <| .next (reads_getU64 _) <| .next (reads_getU64 _) <|
    .next (reads_getU64 _) <| .next (reads_getU64 _) <| .next (reads_getU64 _) <|
    .next (reads_getU64 _) <| .next (reads_getU64 _) <| .next (reads_getU64 _) <|
    .next (reads_getU64 _) <| .next (reads_getU64 _) <| .checked _ _
  exact hread.congr (by simp [withinAllocators])

end LifecycleFabric.StateFile
