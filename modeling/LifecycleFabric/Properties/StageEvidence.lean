import LifecycleFabric.Engine.Plans
import LifecycleFabric.Properties.Departures
import LifecycleFabric.Properties.Withdrawals

/-!
# Evidence that workers publish for a stage

A message names a rollout and a stage, not their generations, and no one fills these in. So
what it publishes answers a need of the exact subject only where both generations are absent,
and a rollout that an operation created has a generation.
-/

namespace LifecycleFabric

open EngineState Runs

variable {cfg : CoordinatorConfig} {limits : ProtocolLimits} {file : Option DurableState}
  {c : EngineConfig} {s : EngineState} {p : Process} {session : Session}
  {message : PublishEvidenceMessage} {plan : RolloutPlan} {record : ModelVersionRecord}
  {stage : StageDefinition} {scope : ScopeId} {need : EvidenceRequirement}

/-! ## What a stage needs -/

/-- The lookups that decide a stage: its required evidence, and the kinds of evidence of its
criteria. -/
def StageDefinition.needs (stage : StageDefinition) : List EvidenceRequirement :=
  stage.requiredEvidence ++
    (stage.acceptance ++ stage.failure).map fun criterion => { kind := criterion.kind }

/-- The model a publication that names none is filed under. -/
def EngineState.modelOfId (s : EngineState) (version : ModelVersionId) : ModelId :=
  ((s.versionOfId version).map ModelVersionRecord.model).getD {}

/-- A PUBLISH_READINESS message that a session publishes, and that is accepted, for a need of
the entered stage of a stored plan in one of its scopes. -/
structure Process.PublishesFor (p : Process) (cfg : CoordinatorConfig) (session : Session)
    (message : PublishEvidenceMessage) (plan : RolloutPlan) (record : ModelVersionRecord)
    (stage : StageDefinition) (scope : ScopeId) (need : EvidenceRequirement) : Prop where
  stored : p.engine.rolloutOf plan.id = some plan
  entered : plan.stageEntered = true
  current : plan.stageAt plan.currentStageIndex = some stage
  needed : need ∈ stage.needs
  moved : scope ∈ plan.stageScopes stage
  candidate : p.engine.versionOf plan.model plan.candidate = some record
  version : message.version = plan.candidate
  modelGeneration : message.modelGeneration = record.generation
  artifactGeneration : message.artifactGeneration = record.artifact.generation
  scope : message.scope = scope
  rollout : message.rollout = plan.id
  stage : message.stage = stage.id
  kind : message.kind = need.kind
  accepted : (p.engine.perform cfg.engine (.publishEvidence (session.evidence message))).2.allowed =
    true

/-- After the frame, the need of the stage is answered by what the message published. -/
def Process.AnswersStage (p : Process) (cfg : CoordinatorConfig) (limits : ProtocolLimits) (i : ℕ)
    (session : Session) (message : PublishEvidenceMessage) (plan : RolloutPlan)
    (record : ModelVersionRecord) (stage : StageDefinition) (scope : ScopeId)
    (need : EvidenceRequirement) : Prop :=
  (p.handleFrame cfg limits i session (.publishReadiness message)).engine.checkEvidence need
      (stageSubject record plan stage scope) =
    { currentness := .current
      record := some (p.engine.filedRecord (session.evidence message)) }

/-- The candidate is found under the model of the plan; where the need asks for the exact
subject, the plan has no generation and its stage none; and where it asks for a current
publisher, the session has no boot. -/
structure Process.CanAnswer (p : Process) (session : Session) (plan : RolloutPlan)
    (need : EvidenceRequirement) : Prop where
  model : p.engine.modelOfId plan.candidate = plan.model
  ungenerated : need.requireExactSubject = true →
    plan.generation.valid = false ∧ plan.currentStageGeneration.valid = false
  unpublished : need.requireCurrentPublisher = true → session.boot.valid = false

/-! ## What a message files -/

/-- A PUBLISH_READINESS frame is a publication. -/
theorem handleFrame_readiness (p : Process) (i : ℕ) (session : Session)
    (message : PublishEvidenceMessage) :
    (p.handleFrame cfg limits i session (.publishReadiness message)).engine =
      step cfg.engine p.engine (.publishEvidence (session.evidence message)) := by
  unfold Process.handleFrame
  dsimp only [Process.requested]
  split
  · rfl
  · rfl

/-- What is accepted is published. -/
theorem publishes_of_allowed {evidence : EvidenceRecord}
    (hallowed : (s.perform c (.publishEvidence evidence)).2.allowed = true) :
    s.publishes evidence = true := by
  change (s.publishEvidence evidence).2.1.allowed = true at hallowed
  rwa [publishEvidence_allowed] at hallowed

theorem filedRecord_model (s : EngineState) {evidence : EvidenceRecord}
    (hmodel : evidence.subject.model.valid = false)
    (hversion : evidence.subject.version.valid = true) :
    (s.filedRecord evidence).subject.model = s.modelOfId evidence.subject.version := by
  change (s.resolveSubjectModel evidence).subject.model = _
  have hzero : evidence.subject.model = {} := by
    rw [Ident.eq_iff_toNat]
    have hnone : ¬0 < evidence.subject.model.raw.toNat := fun hpos => by
      rw [Ident.valid_iff_pos.mpr hpos] at hmodel
      cases hmodel
    change _ = 0
    omega
  unfold resolveSubjectModel modelOfId
  rw [hmodel, Bool.not_false, if_pos ⟨rfl, hversion⟩]
  cases s.versionOfId evidence.subject.version with
  | none => exact hzero
  | some resolved => rfl

/-- Only the model of a subject is resolved. -/
theorem resolveSubjectModel_eq (s : EngineState) (evidence : EvidenceRecord) :
    s.resolveSubjectModel evidence =
      { evidence with
        subject :=
          { evidence.subject with model := (s.resolveSubjectModel evidence).subject.model } } := by
  unfold resolveSubjectModel
  split
  · split
    · rfl
    · rfl
  · rfl

/-- A message of a stage is filed under the subject of the stage without generations of the
rollout and of the stage. -/
theorem filedRecord_subject (session : Session) (hs : Coherent s)
    (hcandidate : s.versionOf plan.model plan.candidate = some record)
    (hmodel : s.modelOfId plan.candidate = plan.model) (hvalid : plan.candidate.valid = true)
    (hversion : message.version = plan.candidate)
    (hgeneration : message.modelGeneration = record.generation)
    (hartifact : message.artifactGeneration = record.artifact.generation)
    (hscope : message.scope = scope) (hrollout : message.rollout = plan.id)
    (hstage : message.stage = stage.id) :
    (s.filedRecord (session.evidence message)).subject =
      { stageSubject record plan stage scope with
        rolloutGeneration := {}
        stageGeneration := {} } := by
  obtain ⟨hrecordModel, hrecordVersion⟩ := versionKey_inj.mp (hs.versions _ record hcandidate)
  have hfiled : (s.filedRecord (session.evidence message)).subject.model = plan.model := by
    refine (filedRecord_model s rfl ?_).trans ?_
    · change message.version.valid = true
      rw [hversion]
      exact hvalid
    · change s.modelOfId message.version = plan.model
      rw [hversion]
      exact hmodel
  have hresolved := resolveSubjectModel_eq s (session.evidence message)
  rw [show (s.resolveSubjectModel (session.evidence message)).subject.model = plan.model from
    hfiled] at hresolved
  unfold filedRecord
  dsimp only
  rw [hresolved]
  dsimp only [Session.evidence]
  rw [hversion, hcandidate, Option.getD_some]
  unfold assignEvidence completeSubject stageSubject versionSubject
  dsimp only
  rw [hgeneration, hartifact, hscope, hrollout, hstage, hrecordModel, hrecordVersion]
  simp only [ite_self]
  rfl

theorem filedRecord_kind (s : EngineState) (evidence : EvidenceRecord) :
    (s.filedRecord evidence).kind = evidence.kind := by
  change (s.resolveSubjectModel evidence).kind = evidence.kind
  rw [resolveSubjectModel_eq]

/-- The subject without generations is the exact subject when these are absent. -/
theorem ungenerated_iff (record : ModelVersionRecord) (plan : RolloutPlan) (stage : StageDefinition)
    (scope : ScopeId) :
    { stageSubject record plan stage scope with rolloutGeneration := {}, stageGeneration := {} } =
        stageSubject record plan stage scope ↔
      plan.generation.valid = false ∧ plan.currentStageGeneration.valid = false := by
  rw [← Bool.not_eq_true, ← Bool.not_eq_true, Ident.valid_iff_ne, Ident.valid_iff_ne, not_not, not_not]
  constructor
  · intro h
    exact ⟨(congrArg EvidenceSubject.rolloutGeneration h).symm,
      (congrArg EvidenceSubject.stageGeneration h).symm⟩
  · rintro ⟨hplan, hstage⟩
    unfold stageSubject
    rw [hplan, hstage]

/-! ## What it answers -/

/-- Evidence that a worker publishes for the entered stage of a plan answers a need of the
stage exactly when the candidate is found under the model of the plan and, for a need of the
exact subject, neither the plan nor its stage has a generation. -/
theorem stage_evidence_answers_iff (hp : Process.Serving cfg limits file p) (i : ℕ)
    (h : p.PublishesFor cfg session message plan record stage scope need) :
    p.AnswersStage cfg limits i session message plan record stage scope need ↔
      p.CanAnswer session plan need := by
  have hs := hp.reachable
  obtain ⟨hrecordModel, hrecordVersion⟩ :=
    versionKey_inj.mp (hs.coherent.versions _ record h.candidate)
  have hpublishes := publishes_of_allowed h.accepted
  obtain ⟨hadmits, hprovenance⟩ := admitted_of_publishes hpublishes
  have hversion : plan.candidate.valid = true := by
    have hvalid := version_of_admits hadmits
    change (p.engine.resolveSubjectModel (session.evidence message)).subject.version.valid = true
      at hvalid
    rw [resolveSubjectModel_eq] at hvalid
    rw [← h.version]
    exact hvalid
  have hmodel : (p.engine.filedRecord (session.evidence message)).subject.model =
      p.engine.modelOfId plan.candidate := by
    rw [← h.version] at hversion ⊢
    exact filedRecord_model p.engine rfl hversion
  have hkind : (p.engine.filedRecord (session.evidence message)).kind = need.kind :=
    (filedRecord_kind _ _).trans h.kind
  unfold Process.AnswersStage
  rw [handleFrame_readiness]
  -- Under the model of the plan the message lies in the bucket the stage looks in.
  have hfound_iff : p.engine.modelOfId plan.candidate = plan.model →
      ((step cfg.engine p.engine (.publishEvidence (session.evidence message))).checkEvidence need
          (stageSubject record plan stage scope) =
        { currentness := .current
          record := some (p.engine.filedRecord (session.evidence message)) } ↔
      (need.requireExactSubject = true →
          plan.generation.valid = false ∧ plan.currentStageGeneration.valid = false) ∧
        (need.requireCurrentPublisher = true → session.boot.valid = false)) := by
    intro hfound
    have hsubject := filedRecord_subject session hs.coherent h.candidate hfound
      hversion h.version h.modelGeneration h.artifactGeneration h.scope h.rollout h.stage
    obtain ⟨older, hbucket, hnewest⟩ := published_newest (c := cfg.engine) hs.marked hpublishes
    have hkey : EvidenceStore.makeKey (p.engine.filedRecord (session.evidence message)).subject
        (p.engine.filedRecord (session.evidence message)).kind =
          EvidenceStore.makeKey (stageSubject record plan stage scope) need.kind := by
      rw [hsubject, hkind]
      rfl
    rw [hkey] at hbucket
    have hnamed : (stageSubject record plan stage scope).version.valid = true := by
      change record.version.valid = true
      rw [← hrecordVersion]
      exact hversion
    have hresolve := resolve_newest_iff need hnamed hbucket hnewest hprovenance
      (step cfg.engine p.engine
        (.publishEvidence (session.evidence message))).policy.base.maxEvidenceAgeTicks
    rw [hsubject, ungenerated_iff, filedRecord_boot] at hresolve
    exact hresolve
  constructor
  · intro hanswers
    have hmem := resolve_mem (congrArg EvidenceLookup.record hanswers)
    have hafter : ReachableState cfg.engine
        (step cfg.engine p.engine (.publishEvidence (session.evidence message))) :=
      Runs.Reachable.run (step cfg.engine) hs [.publishEvidence (session.evidence message)]
    have hfiled := hafter.filed _ _ hmem
    have hfound := hmodel.symm.trans ((EvidenceStore.model_of_makeKey hfiled).trans hrecordModel.symm)
    obtain ⟨hungenerated, hunpublished⟩ := (hfound_iff hfound).mp hanswers
    exact ⟨hfound, hungenerated, hunpublished⟩
  · rintro ⟨hfound, hungenerated, hunpublished⟩
    exact (hfound_iff hfound).mpr ⟨hungenerated, hunpublished⟩

/-! ### Started without a state file -/

/-- A planned rollout has a generation. -/
theorem generation_of_plannedRollout {request : RolloutPlanRequest}
    (h : s.plannedRollout c request = some plan) : plan.generation.valid = true := by
  unfold plannedRollout at h
  cases hrecord : s.versionOf request.model request.candidate with
  | none => simp [hrecord] at h
  | some record =>
    simp only [hrecord] at h
    split at h
    · cases h
    · split at h
      · cases h
      · split at h
        · cases h
        · split_ifs at h
          obtain rfl := Option.some.inj h
          exact Ident.nextGeneration_valid record.rolloutGeneration

/-- Every stored plan has a generation. -/
def Generated (s : EngineState) : Prop :=
  ∀ key plan, s.rollouts.get? key = some plan → plan.generation.valid = true

theorem step_generated (hs : Coherent s) (h : Generated s) {op : Operation}
    (hop : op.isImport = false) : Generated (step c s op) := by
  intro key plan hplan
  rcases step_plan_origin hs hop hplan with ⟨before, hbefore, hstep⟩ | ⟨request, _, hplanned, _⟩
  · rw [hstep.generation]
    exact h key before hbefore
  · exact generation_of_plannedRollout hplanned

/-- Without a state file, what a worker publishes never answers a need of the exact subject,
and so no criterion of a stage. -/
theorem stage_evidence_unanswered (hp : Process.Serving cfg limits none p) (i : ℕ)
    (h : p.PublishesFor cfg session message plan record stage scope need)
    (hexact : need.requireExactSubject = true) :
    ¬p.AnswersStage cfg limits i session message plan record stage scope need := by
  have hgenerated : Coherent p.engine ∧ Generated p.engine := by
    refine hp.engine_invariant (P := fun t => Coherent t ∧ Generated t) ?_ ?_
    · intro coordinator hstart
      obtain rfl := Option.some.inj hstart
      refine ⟨coherent_init cfg.engine, ?_⟩
      intro key plan hplan
      cases hplan
    · intro t op hcarried ht
      have hop : op.isImport = false := by
        cases op with
        | importDurableState => cases hcarried
        | _ => rfl
      exact ⟨(step_cases ht.1 op).coherent ht.1, step_generated ht.1 ht.2 hop⟩
  rw [stage_evidence_answers_iff hp i h]
  rintro ⟨_, hungenerated, _⟩
  have hgeneration := hgenerated.2 plan.id.raw plan h.stored
  rw [(hungenerated hexact).1] at hgeneration
  cases hgeneration

/-! ### A canary that waits for its error rate -/

/-- A coordinator that serves one session, which registers a worker and starts a canary with
an acceptance criterion. -/
def canaryStarted : List ProcessEvent :=
  [.accept,
    .service 0 (.data [.hello { worker := ⟨1⟩, boot := ⟨7⟩ },
      .registerWorker { worker := ⟨1⟩, boot := ⟨7⟩ },
      .registerModel [109] [] .synthetic,
      .registerVersion
        { model := ⟨1⟩, label := [49]
          artifact := { setId := ⟨1⟩, generation := ⟨1⟩, digest := [97] } },
      .publishCompatibility ⟨1⟩ { key := [101] } .compatible [] .synthetic,
      .promote { model := ⟨1⟩, candidate := ⟨1⟩, scope := ⟨1⟩, environmentKey := [101] },
      .registerRolloutPlan
        { model := ⟨1⟩, candidate := ⟨1⟩, rootScope := ⟨1⟩
          cohorts := [{ name := [99], scopes := [⟨1⟩] }]
          stages := [{ name := [115], cohortIndices := [0]
                       acceptance := [{ kind := .errorRate }] }] },
      .beginRollout { rollout := ⟨1⟩ }] false)]

/-- The process that has started the canary. -/
def canaryProcess : Process :=
  ({ engine := init {}, lastSavedSequence := (init {}).sequence } : Process).runEvents {} {}
    canaryStarted

theorem canaryProcess_serving : Process.Serving {} {} none canaryProcess :=
  ⟨_, rfl, canaryStarted, rfl⟩

def canaryPlan : RolloutPlan := (canaryProcess.engine.rolloutOf ⟨1⟩).getD {}

def canaryRecord : ModelVersionRecord := (canaryProcess.engine.versionOf ⟨1⟩ ⟨1⟩).getD {}

/-- The session of the worker. -/
def canarySession : Session := canaryProcess.sessions.headD {}

/-- The error rate the canary waits for. -/
def errorReading : PublishEvidenceMessage :=
  { version := ⟨1⟩, modelGeneration := ⟨1⟩, artifactGeneration := ⟨1⟩, scope := ⟨1⟩, rollout := ⟨1⟩
    stage := ⟨1⟩, kind := .errorRate, verdict := .satisfied, provenance := .synthetic }

theorem canary_published :
    canaryProcess.PublishesFor {} canarySession errorReading canaryPlan canaryRecord
      canaryPlan.currentStage ⟨1⟩ { kind := .errorRate } where
  stored := by decide +kernel
  entered := by decide +kernel
  current := by decide +kernel
  needed := by decide +kernel
  moved := by decide +kernel
  candidate := by decide +kernel
  version := by decide +kernel
  modelGeneration := by decide +kernel
  artifactGeneration := by decide +kernel
  scope := rfl
  rollout := by decide +kernel
  stage := by decide +kernel
  kind := rfl
  accepted := by decide +kernel

theorem stage_evidence_answers_witness :
    canaryProcess.AnswersStage {} {} 0 canarySession errorReading canaryPlan canaryRecord
        canaryPlan.currentStage ⟨1⟩ { kind := .errorRate } ↔
      canaryProcess.CanAnswer canarySession canaryPlan { kind := .errorRate } :=
  stage_evidence_answers_iff canaryProcess_serving 0 canary_published

/-- The reading is accepted, and the criterion of the stage has no current evidence. -/
theorem canary_unanswered :
    Process.Serving {} {} none canaryProcess ∧
      canaryProcess.PublishesFor {} canarySession errorReading canaryPlan canaryRecord
        canaryPlan.currentStage ⟨1⟩ { kind := .errorRate } ∧
      ¬canaryProcess.AnswersStage {} {} 0 canarySession errorReading canaryPlan canaryRecord
        canaryPlan.currentStage ⟨1⟩ { kind := .errorRate } := by
  refine ⟨canaryProcess_serving, canary_published, ?_⟩
  intro hanswers
  have hcurrent := congrArg EvidenceLookup.currentness hanswers
  exact absurd hcurrent (by decide +kernel)

end LifecycleFabric
