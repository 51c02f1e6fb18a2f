import LifecycleFabric.Engine.Standing

/-!
# What the sequence records

The durable view of the engine is what it exports, apart from the sequence and the
snapshot generation. A step that changes the durable view is recorded when the sequence
grows with it. Every operation records its changes except two: the registration of a
scope and the publication of evidence leave the sequence where it is.
-/

namespace LifecycleFabric

open EngineState

variable {c : EngineConfig} {p : Permit} {s s' : EngineState}

/-- What the engine exports, without its sequence and snapshot generation. -/
def EngineState.durableView (s : EngineState) : DurableState :=
  { s.exportDurableState with sequence := {}, generation := {} }

/-- A change of the durable view shows in the sequence. -/
def Recorded (s s' : EngineState) : Prop :=
  s'.durableView ≠ s.durableView → s.sequence < s'.sequence

theorem recorded_of_same (h : s'.durableView = s.durableView) : Recorded s s' :=
  fun hne => absurd h hne

theorem Recorded.refl (s : EngineState) : Recorded s s := recorded_of_same rfl

theorem recorded_of_lt (h : s.sequence < s'.sequence) : Recorded s s' := fun _ => h

/-! ## The sequence below saturation -/

/-- Above a sequence that is not exhausted, the next one is strictly greater. -/
theorem lt_nextGeneration_of_le {a b : Sequence} (ha : ¬a.Saturated) (hab : a ≤ b) :
    a < b.nextGeneration := by
  have hbound := a.raw.toNat_lt
  rw [Ident.saturated_iff_toNat] at ha
  rw [Ident.le_iff_toNat] at hab
  rw [Ident.lt_iff_toNat, Ident.toNat_nextGeneration]
  omega

theorem bump_lt (hseq : ¬s.sequence.Saturated) : s.sequence < s.bumpSequence.sequence :=
  Ident.lt_nextGeneration hseq

theorem Moves.sequence_lt (h : Moves c p s s') (hseq : ¬s.sequence.Saturated) :
    s.sequence < s'.sequence := by
  obtain ⟨mid, hbefore, hafter⟩ := h
  have hbump : s.sequence < mid.bumpSequence.sequence :=
    lt_nextGeneration_of_le hseq hbefore.sequence_le
  exact lt_of_lt_of_le hbump hafter.sequence_le

theorem Progresses.recorded (h : Progresses c p s s') (hseq : ¬s.sequence.Saturated) :
    Recorded s s' := by
  rcases h with rfl | h
  · exact Recorded.refl s'
  · exact recorded_of_lt (h.sequence_lt hseq)

/-! ## Evidence -/

namespace EvidenceStore

theorem total_eq_length (records : OrdMap EvidenceKey (List EvidenceRecord)) :
    total records = records.values.flatten.length := by
  rw [total, List.length_flatten]

/-- Dropping records drops them from the list of all records. -/
theorem flatten_dropWhere (drop : EvidenceRecord → Bool)
    (records : OrdMap EvidenceKey (List EvidenceRecord)) :
    (dropWhere drop records).values.flatten =
      records.values.flatten.filter fun record => !drop record := by
  simp only [dropWhere, OrdMap.values, OrdMap.filterMap]
  generalize records.entries = entries
  induction entries with
  | nil => rfl
  | cons e entries ih =>
    rw [List.map_cons, List.flatten_cons, List.filter_append, ← ih, List.filterMap_cons]
    by_cases hempty : (e.2.filter fun record => !drop record).isEmpty = true
    · rw [if_pos hempty, List.isEmpty_iff.mp hempty]
      rfl
    · rw [if_neg hempty]
      rfl

/-- Where no record goes, the durable records stay. -/
theorem durable_of_none_dropped {store : EvidenceStore} {boot : WorkerBootId}
    (h : (store.invalidatePublisherBoot boot).2 = 0) :
    (store.invalidatePublisherBoot boot).1.durable = store.durable := by
  unfold invalidatePublisherBoot at h ⊢
  split_ifs at h ⊢ with hboot
  · rfl
  · dsimp only at h ⊢
    have hle := List.length_filter_le
      (fun record : EvidenceRecord => !decide (record.boot = boot)) store.records.values.flatten
    rw [total_eq_length, total_eq_length, flatten_dropWhere] at h
    unfold durable withdrawn
    dsimp only
    have hsame : (store.records.values.flatten.filter fun record =>
        !decide (record.boot = boot)).length = store.records.values.flatten.length := by
      omega
    rw [flatten_dropWhere, List.filter_eq_self.mpr (List.length_filter_eq_length_iff.mp hsame)]

/-- Whether the store takes a record. -/
def admits (store : EvidenceStore) (record : EvidenceRecord) : Bool :=
  record.subject.version.valid && record.generation.valid &&
    decide (record.detail.length ≤ maxEvidenceDetail) &&
    decide (record.unit.length ≤ maxEvidenceUnit) &&
    ((store.bucket (makeKey record.subject record.kind)).getLast?.all fun newest =>
      decide (newest.generation < record.generation)) &&
    !(store.watermark.valid && decide (record.generation ≤ store.watermark))

/-- A publication is accepted exactly when the store takes the record. -/
theorem publish_allowed (store : EvidenceStore) (record : EvidenceRecord) :
    (store.publish record).2.allowed = store.admits record := by
  unfold publish admits
  dsimp only
  have hrefused : ∀ (d : Decision) {b : Bool}, b = false → d.allowed = false →
      ((store, d) : EvidenceStore × Decision).2.allowed = b := by
    intro d b hb hd
    rw [hb]
    exact hd
  generalize (store.bucket (makeKey record.subject record.kind)).getLast? = newest
  split_ifs with hversion hgeneration htexts holder hsame hverdict hwatermark
  · exact hrefused _ (by simp_all) rfl
  · exact hrefused _ (by simp_all) rfl
  · refine hrefused _ ?_ rfl
    rcases htexts with hdetail | hunit
    · simp [Nat.not_le.mpr hdetail]
    · simp [Nat.not_le.mpr hunit]
  · refine hrefused _ ?_ rfl
    cases newest with
    | none => simp at holder
    | some newest =>
      simp at holder
      simp [not_lt.mpr holder.le]
  · refine hrefused _ ?_ rfl
    cases newest with
    | none => simp at hsame
    | some newest =>
      simp at hsame
      simp [hsame]
  · refine hrefused _ ?_ rfl
    cases newest with
    | none => simp at hsame
    | some newest =>
      simp at hsame
      simp [hsame]
  · exact hrefused _ (by simp [hwatermark.1, hwatermark.2]) rfl
  · simp only [Bool.not_eq_true', Bool.not_eq_false] at hversion hgeneration
    rw [not_or, not_lt, not_lt] at htexts
    have hnewer : (newest.all fun newest => decide (newest.generation < record.generation)) =
        true := by
      cases newest with
      | none => rfl
      | some newest =>
        simp only [Option.any_some, decide_eq_true_eq] at holder hsame
        rw [Option.all_some, decide_eq_true_eq]
        exact lt_of_le_of_ne (not_lt.mp holder) (Ne.symm hsame)
    have hahead : (store.watermark.valid && decide (record.generation ≤ store.watermark)) =
        false := by
      rw [Bool.eq_false_iff, ne_eq, Bool.and_eq_true, decide_eq_true_eq]
      exact hwatermark
    rw [hversion, hgeneration, hnewer, hahead, decide_eq_true htexts.1, decide_eq_true htexts.2]
    rfl
end EvidenceStore

/-! ## The operations that record nothing -/

/-- Whether a publication of evidence is accepted. -/
def EngineState.publishes (s : EngineState) (record : EvidenceRecord) : Bool :=
  let record := s.resolveSubjectModel record
  match s.versionOf record.subject.model record.subject.version with
  | none => false
  | some owner =>
    decide (record.provenance ≠ .unknown) &&
      s.evidence.admits
        (s.assignEvidence { record with subject := completeSubject record.subject owner })

/-- Whether an operation changes the durable view without recording it: it registers a
scope or publishes evidence. -/
def Operation.unrecorded (s : EngineState) : Operation → Bool
  | .registerScope path => s.scopes.opensPath path
  | .publishEvidence record => s.publishes record
  | _ => false

theorem registerScope_unrecorded (hrooted : s.scopes.Rooted) (path : Text) :
    (s.scopes.opensPath path = true → ¬Recorded s (s.registerScope path).1) ∧
      (s.scopes.opensPath path = false → Recorded s (s.registerScope path).1) := by
  obtain ⟨hsame, hgrows⟩ := ScopeRegistry.ensurePath_opens hrooted path
  constructor
  · intro hopens hrecorded
    have hmore := hgrows hopens
    refine lt_irrefl s.sequence (hrecorded ?_)
    intro heq
    have hscopes : (s.scopes.ensurePath path).1.records = s.scopes.records :=
      congrArg DurableState.scopes heq
    rw [hscopes] at hmore
    exact lt_irrefl _ hmore
  · intro hclosed
    have hkept : (s.registerScope path).1 = s := by
      unfold registerScope
      dsimp only
      rw [hsame hclosed]
    rw [hkept]
    exact Recorded.refl s

/-- An accepted publication takes the next identity and leaves the sequence alone. -/
theorem publishEvidence_unrecorded (s : EngineState) (record : EvidenceRecord) :
    (s.publishes record = true → ¬Recorded s (s.publishEvidence record).1) ∧
      (s.publishes record = false → Recorded s (s.publishEvidence record).1) := by
  unfold publishes publishEvidence
  dsimp only
  cases s.versionOf (s.resolveSubjectModel record).subject.model
      (s.resolveSubjectModel record).subject.version with
  | none => exact ⟨fun h => absurd h Bool.false_ne_true, fun _ => Recorded.refl s⟩
  | some owner =>
    dsimp only
    by_cases hprovenance : (s.resolveSubjectModel record).provenance = .unknown
    · rw [if_pos hprovenance]
      simp only [hprovenance]
      exact ⟨fun h => by simp at h, fun _ => Recorded.refl s⟩
    · rw [if_neg hprovenance, EvidenceStore.publish_allowed, decide_eq_true hprovenance,
        Bool.true_and]
      constructor
      · intro hadmits hrecorded
        rw [hadmits, Bool.not_true, if_neg Bool.false_ne_true] at hrecorded
        refine lt_irrefl s.sequence (hrecorded ?_)
        intro heq
        have hnext : s.nextEvidenceId + 1 = s.nextEvidenceId :=
          congrArg DurableState.nextEvidenceId heq
        exact absurd hnext (by simp)
      · intro hrefused
        rw [hrefused, Bool.not_false, if_pos rfl]
        exact Recorded.refl s

/-! ## The operations that record what they change -/

theorem registerModel_recorded (hseq : ¬s.sequence.Saturated) (name family : Text)
    (provenance : Provenance) : Recorded s (s.registerModel c name family provenance).1 := by
  unfold registerModel
  split_ifs
  · exact Recorded.refl s
  · exact Recorded.refl s
  · exact Recorded.refl s
  · exact Recorded.refl s
  · exact recorded_of_lt (bump_lt hseq)

theorem registerVersion_recorded (hseq : ¬s.sequence.Saturated)
    (request : RegisterVersionRequest) : Recorded s (s.registerVersion c request).1 := by
  unfold registerVersion
  dsimp only
  split_ifs
  · exact Recorded.refl s
  · exact Recorded.refl s
  · exact Recorded.refl s
  · exact Recorded.refl s
  · exact Recorded.refl s
  · exact Recorded.refl s
  · split
    · exact Recorded.refl s
    · exact recorded_of_lt (bump_lt hseq)

theorem setPolicy_recorded (hseq : ¬s.sequence.Saturated) (policy : LifecyclePolicy) :
    Recorded s (s.setPolicy policy).1 := by
  unfold setPolicy
  split_ifs
  · exact Recorded.refl s
  · exact Recorded.refl s
  · exact Recorded.refl s
  · exact Recorded.refl s
  · exact recorded_of_lt (bump_lt hseq)

theorem setScopePolicy_recorded (hseq : ¬s.sequence.Saturated)
    (refinement : ScopePolicyOverride) : Recorded s (s.setScopePolicy refinement).1 := by
  unfold setScopePolicy
  split
  · exact Recorded.refl s
  · dsimp only
    split
    · exact Recorded.refl s
    · exact recorded_of_lt (bump_lt hseq)

theorem publishCompatibility_recorded (hseq : ¬s.sequence.Saturated) (version : ModelVersionId)
    (environment : EnvironmentProfile) (outcome : CompatibilityOutcome) (detail : Text)
    (provenance : Provenance) :
    Recorded s (s.publishCompatibility c version environment outcome detail provenance).1 := by
  unfold publishCompatibility
  split
  · exact Recorded.refl s
  · split
    · exact Recorded.refl s
    · split
      · exact Recorded.refl s
      · dsimp only
        split
        · exact recorded_of_lt (bump_lt hseq)
        · exact recorded_of_lt (bump_lt hseq)

/-- Forgetting no evidence changes nothing that is durable. -/
theorem expirePublisherEvidence_recorded (hseq : ¬s.sequence.Saturated) (boot : WorkerBootId) :
    Recorded s (s.expirePublisherEvidence boot).1 := by
  unfold expirePublisherEvidence
  dsimp only
  split_ifs with hremoved
  · exact recorded_of_lt (bump_lt hseq)
  · refine recorded_of_same ?_
    have hdurable := EvidenceStore.durable_of_none_dropped (Nat.eq_zero_of_not_pos hremoved)
    unfold durableView exportDurableState
    rw [hdurable]

theorem registerWorker_recorded (hseq : ¬s.sequence.Saturated)
    (registration : WorkerRegistration) : Recorded s (s.registerWorker c registration).1 := by
  unfold registerWorker
  dsimp only
  split_ifs
  · exact Recorded.refl s
  · exact Recorded.refl s
  · exact Recorded.refl s
  · exact Recorded.refl s
  · exact Recorded.refl s
  · exact recorded_of_lt (bump_lt hseq)

theorem fenceWorker_recorded (hseq : ¬s.sequence.Saturated) (worker : WorkerId)
    (boot : WorkerBootId) (epoch : CoordinatorEpoch) (reason : Text) :
    Recorded s (s.fenceWorker worker boot epoch reason).1 := by
  unfold fenceWorker
  split
  · exact Recorded.refl s
  · split_ifs
    · exact Recorded.refl s
    · exact Recorded.refl s
    · exact Recorded.refl s
    · refine recorded_of_lt ((bump_lt hseq).trans_le ?_)
      refine le_trans ?_ (settleFenced_aside (c := {}) _ _ _).sequence
      exact le_rfl

/-- The connection state of a worker is volatile. -/
theorem setWorkerLiveness_recorded (worker : WorkerId) (connected : Bool) :
    Recorded s (s.setWorkerLiveness worker connected).1 := by
  unfold setWorkerLiveness
  split_ifs
  · exact Recorded.refl s
  · exact recorded_of_same rfl

theorem createRollout_recorded (hseq : ¬s.sequence.Saturated) (request : RolloutPlanRequest) :
    Recorded s (s.createRollout c request).1 := by
  unfold createRollout
  split
  · exact Recorded.refl s
  · split
    · exact Recorded.refl s
    · dsimp only
      split
      · exact recorded_of_lt (bump_lt hseq)
      · split
        · exact recorded_of_lt (bump_lt hseq)
        · split
          · exact recorded_of_lt (bump_lt hseq)
          · exact recorded_of_lt
              (lt_nextGeneration_of_le hseq (Ident.le_nextGeneration s.sequence))

theorem beginAttempt_recorded (hseq : ¬s.sequence.Saturated) (request : AttemptRequest) :
    Recorded s (s.beginAttempt c request).1 := by
  unfold beginAttempt
  split
  · exact Recorded.refl s
  · exact Recorded.refl s
  · exact recorded_of_lt (bump_lt hseq)

theorem settleAttempt_recorded (hseq : ¬s.sequence.Saturated) (key : UInt64)
    (state : AttemptState) (detail : Text) : Recorded s (s.settleAttempt key state detail) :=
  recorded_of_lt (bump_lt hseq)

theorem completeAttempt_recorded (hseq : ¬s.sequence.Saturated) (completion : CompletionRecord) :
    Recorded s (s.completeAttempt completion).1 := by
  unfold completeAttempt
  split
  · exact Recorded.refl s
  · split
    · exact Recorded.refl s
    · split
      · exact settleAttempt_recorded hseq _ _ _
      · exact settleAttempt_recorded hseq _ _ _

theorem reconcileAttempt_recorded (hseq : ¬s.sequence.Saturated) (attempt : AttemptId)
    (sideEffectObserved : Bool) (epoch : CoordinatorEpoch) (detail : Text) :
    Recorded s (s.reconcileAttempt attempt sideEffectObserved epoch detail).1 := by
  unfold reconcileAttempt
  split
  · exact Recorded.refl s
  · split_ifs
    · exact Recorded.refl s
    · exact Recorded.refl s
    · exact Recorded.refl s
    · exact settleAttempt_recorded hseq _ _ _
    · exact settleAttempt_recorded hseq _ _ _
    · exact settleAttempt_recorded hseq _ _ _

theorem advanceEpoch_recorded (hseq : ¬s.sequence.Saturated) (expectedCurrent : CoordinatorEpoch) :
    Recorded s (s.advanceEpoch expectedCurrent).1 := by
  unfold advanceEpoch
  split_ifs
  · exact Recorded.refl s
  · exact recorded_of_lt (bump_lt hseq)

theorem importDurableState_recorded (hseq : ¬s.sequence.Saturated) (d : DurableState)
    (newEpoch : CoordinatorEpoch) : Recorded s (s.importDurableState c d newEpoch).1 := by
  rcases importDurableState_cases c s d newEpoch with ⟨hsame, _⟩ | ⟨recovered, _, heq⟩
  · rw [hsame]
    exact Recorded.refl s
  · rw [heq]
    exact recorded_of_lt (lt_nextGeneration_of_le hseq (le_max_right _ _))

theorem invalidateVolatileState_recorded (hseq : ¬s.sequence.Saturated) (cause : Text) :
    Recorded s (s.invalidateVolatileState cause) := by
  unfold invalidateVolatileState
  dsimp only
  refine recorded_of_lt (lt_nextGeneration_of_le hseq ?_)
  refine le_trans ?_ (stampEntered_aside (c := {}) _ _).sequence
  exact le_rfl

/-! ## Every operation -/

/-- Below exhaustion of the sequence an operation records what it changes, unless it
registers a scope or publishes evidence. -/
theorem step_recorded (hs : Coherent s) (hrooted : s.scopes.Rooted)
    (hseq : ¬s.sequence.Saturated) {op : Operation} (hop : op.unrecorded s = false) :
    Recorded s (step c s op) := by
  cases op with
  | registerModel name family provenance => exact registerModel_recorded hseq name family _
  | registerVersion request => exact registerVersion_recorded hseq request
  | reviseVersion request => exact (reviseVersion_progresses s request).recorded hseq
  | registerScope path => exact (registerScope_unrecorded hrooted path).2 hop
  | setPolicy policy => exact setPolicy_recorded hseq policy
  | setScopePolicy refinement => exact setScopePolicy_recorded hseq refinement
  | publishCompatibility version environment outcome detail provenance =>
    exact publishCompatibility_recorded hseq version environment outcome detail provenance
  | publishEvidence record => exact (publishEvidence_unrecorded s record).2 hop
  | expirePublisherEvidence boot => exact expirePublisherEvidence_recorded hseq boot
  | registerWorker registration => exact registerWorker_recorded hseq registration
  | fenceWorker worker boot epoch reason =>
    exact fenceWorker_recorded hseq worker boot epoch reason
  | setWorkerLiveness worker connected => exact setWorkerLiveness_recorded worker connected
  | promote request =>
    exact (promote_progresses (c := c) hs request False.elim).recorded hseq
  | createRollout request => exact createRollout_recorded hseq request
  | beginRollout request =>
    cases hplan : s.rolloutOf request.rollout with
    | none =>
      have hstep : step c s (.beginRollout request) = s := by
        simp [step, perform, beginRollout, hplan]
      rw [hstep]
      exact Recorded.refl s
    | some plan => exact (beginRollout_progresses (c := c) hs request hplan).recorded hseq
  | advanceStage request =>
    cases hplan : s.rolloutOf request.rollout with
    | none =>
      have hstep : step c s (.advanceStage request) = s := by
        simp [step, perform, advanceStage, hplan]
      rw [hstep]
      exact Recorded.refl s
    | some plan =>
      exact (advanceStage_progresses (c := c) hs request hplan False.elim).recorded hseq
  | failStage request => exact (failStage_progresses (c := c) s request).recorded hseq
  | supersedeRollout rollout generation epoch detail =>
    exact (supersedeRollout_progresses (c := c) s rollout generation epoch detail
      False.elim).recorded hseq
  | rollback request => exact (rollback_progresses (c := c) hs request False.elim).recorded hseq
  | retire request => exact (retire_progresses (c := c) hs request).recorded hseq
  | revalidate request => exact (revalidate_progresses (c := c) s request).recorded hseq
  | beginAttempt request => exact beginAttempt_recorded hseq request
  | completeAttempt completion => exact completeAttempt_recorded hseq completion
  | reconcileAttempt attempt sideEffectObserved epoch detail =>
    exact reconcileAttempt_recorded hseq attempt sideEffectObserved epoch detail
  | advanceEpoch expectedCurrent => exact advanceEpoch_recorded hseq expectedCurrent
  | importDurableState d newEpoch => exact importDurableState_recorded hseq d newEpoch
  | invalidateVolatileState cause => exact invalidateVolatileState_recorded hseq cause

/-- A registered scope and published evidence are never recorded. -/
theorem step_unrecorded (hrooted : s.scopes.Rooted) {op : Operation}
    (hop : op.unrecorded s = true) : ¬Recorded s (step c s op) := by
  cases op with
  | registerScope path => exact (registerScope_unrecorded hrooted path).1 hop
  | publishEvidence record => exact (publishEvidence_unrecorded s record).1 hop
  | _ => exact absurd hop Bool.false_ne_true

/-- A change of the durable view shows in the sequence exactly when the operation is neither
the registration of a scope nor an accepted publication of evidence. The sequence must not
be exhausted for it to grow. -/
theorem durable_change_recorded_iff (hs : ReachableState c s) (op : Operation) :
    (op.unrecorded s = true → ¬Recorded s (step c s op)) ∧
      (¬s.sequence.Saturated → (Recorded s (step c s op) ↔ op.unrecorded s = false)) := by
  have hrooted := hs.standing.tree.rooted
  refine ⟨fun hop => step_unrecorded hrooted hop, fun hseq => ⟨?_, ?_⟩⟩
  · intro hrecorded
    by_contra hop
    exact step_unrecorded hrooted (by simpa using hop) hrecorded
  · exact step_recorded hs.coherent hrooted hseq

theorem durable_change_recorded_witness :
    Recorded (init {}) (step {} (init {}) (.registerModel [109] [] .synthetic)) ↔
      Operation.unrecorded (init {}) (.registerModel [109] [] .synthetic) = false :=
  (durable_change_recorded_iff (c := {}) ⟨[], rfl⟩ (.registerModel [109] [] .synthetic)).2
    (by decide)

/-- The registration of a scope is not recorded. -/
theorem registered_scope_unrecorded :
    ¬Recorded (init {}) (step {} (init {}) (.registerScope (text "global/site:a"))) := by
  have hchanged : (step {} (init {}) (.registerScope (text "global/site:a"))).durableView ≠
      (init {}).durableView := by decide +kernel
  have hsame : ¬(init {}).sequence <
      (step {} (init {}) (.registerScope (text "global/site:a"))).sequence := by decide +kernel
  exact fun hrecorded => hsame (hrecorded hchanged)

end LifecycleFabric
