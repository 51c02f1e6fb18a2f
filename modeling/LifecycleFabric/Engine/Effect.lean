import LifecycleFabric.AuthorityChange
import LifecycleFabric.Engine.Step

/-!
# Effects

Every composite operation is a chain of a few kinds of effect: the sequence advances, a
version record is annotated, moved along the lifecycle table or revised, a scope
generation advances, the authority table is weakened or gains one binding of a version
that is not retired, and a rollout plan is edited. An invariant of the engine is proved
once for each effect, and from there for every operation.
-/

namespace LifecycleFabric

open AuthorityTable

/-! ## Changes of one record -/

/-- A version record with only its bookkeeping changed. -/
structure ModelVersionRecord.Annotated (before after : ModelVersionRecord) : Prop where
  model : after.model = before.model
  version : after.version = before.version
  label : after.label = before.label
  generation : after.generation = before.generation
  predecessor : after.predecessor = before.predecessor
  artifact : after.artifact = before.artifact
  requirements : after.requirements = before.requirements
  state : after.state = before.state
  lifecycleGeneration : after.lifecycleGeneration = before.lifecycleGeneration

/-- A change of a version record that does not retire it. -/
inductive VersionEdit (c : EngineConfig) : ModelVersionRecord → ModelVersionRecord → Prop
  | annotate {before after : ModelVersionRecord} (h : before.Annotated after) :
      VersionEdit c before after
  | move {before after : ModelVersionRecord}
      (h : Relation.ReflTransGen ModelVersionRecord.Transitioned before after)
      (hretired : after.retired = true → before.retired = true) : VersionEdit c before after
  | revise (before : ModelVersionRecord) (request : ReviseVersionRequest) (updated : Sequence)
      (hdigest : validDigest request.artifact.digest c.bounds.maxDigestLength = true) :
      VersionEdit c before (EngineState.revisedRecord before request updated)

/-- Whether the current stage generation was advanced. -/
def RolloutPlan.stageAdvanced (plan : RolloutPlan) : Bool :=
  plan.history.any fun entry =>
    decide (entry.generation = plan.currentStageGeneration) && decide (entry.decision = .advanced)

/-- One edit of the progress of a rollout plan. A strict edit settles only a stage
generation that has no decision yet. -/
inductive PlanEdit (strict : Prop) (before : RolloutPlan) : RolloutPlan → Prop
  | note {after : RolloutPlan} (hstages : after.stages = before.stages)
      (hindex : after.currentStageIndex = before.currentStageIndex)
      (hgeneration : after.currentStageGeneration = before.currentStageGeneration)
      (hhistory : after.history = before.history) (hcompleted : after.completed = before.completed)
      (hfailed : after.failed = before.failed)
      (hentered : after.stageEntered = true → before.stageEntered = true)
      (hlive : after.live = true →
        before.live = true ∧ after.stageEntered = before.stageEntered) : PlanEdit strict before after
  | settle {after : RolloutPlan} (record : StageRecord) (hstages : after.stages = before.stages)
      (hindex : after.currentStageIndex = before.currentStageIndex)
      (hgeneration : after.currentStageGeneration = before.currentStageGeneration)
      (hhistory : after.history = before.history ++ [record])
      (hrecord : record.generation = before.currentStageGeneration)
      (hsettles : record.decision ≠ .entered) (hadvances : record.decision ≠ .advanced)
      (hcompleted : after.completed = before.completed)
      (hfailed : before.failed = true ∨ record.decision = .failed → after.failed = true)
      (hentered : after.stageEntered = true → before.stageEntered = true)
      (hlive : after.live = false) (hstrict : strict → before.stageSettled = false) :
      PlanEdit strict before after
  | advance (decided updated : Sequence) (hlive : before.live = true)
      (hentered : before.stageEntered = true) (hstage : before.currentStageIndex < before.stages.length)
      (hopen : before.stageSettled = false) :
      PlanEdit strict before (EngineState.advancedPlan decided updated before)
  | complete (updated : Sequence) (hlive : before.live = true)
      (hadvanced : before.stageAdvanced = true) :
      PlanEdit strict before (EngineState.completedPlan updated before)
  | enter (updated : Sequence) (hlive : before.live = true) (hentered : before.stageEntered = false)
      (hindex : before.currentStageIndex = 0) :
      PlanEdit strict before (EngineState.enterStage before.firstStage updated before)
  | next (updated : Sequence) (hlive : before.live = true)
      (hentered : before.stageEntered = true) (hadvanced : before.stageAdvanced = true)
      (hnext : before.currentStageIndex + 1 < before.stages.length) :
      PlanEdit strict before (EngineState.nextStagePlan before.nextStage updated before)

/-- A change of a rollout plan. A plan never comes back to life, its history only
grows, and a committed rollback stays recorded. Only a driven plan makes progress. -/
structure PlanStep (driven strict : Prop) (before after : RolloutPlan) : Prop where
  id : after.id = before.id
  generation : after.generation = before.generation
  model : after.model = before.model
  candidate : after.candidate = before.candidate
  candidateGeneration : after.candidateGeneration = before.candidateGeneration
  policyGeneration : after.policyGeneration = before.policyGeneration
  rootScope : after.rootScope = before.rootScope
  stages : after.stages = before.stages
  cohorts : after.cohorts = before.cohorts
  previous : after.previous = before.previous
  target : after.rollbackTarget = before.rollbackTarget
  live : after.live = true → before.live = true
  history : before.history <+: after.history
  rollback : before.id.valid = true → before.lastRollback.valid = true →
    after.lastRollback = before.lastRollback
  undriven : driven ∨ after.currentStageIndex = before.currentStageIndex ∧
    after.currentStageGeneration = before.currentStageGeneration ∧
    after.rootScopeGeneration = before.rootScopeGeneration
  index : after.currentStageIndex = before.currentStageIndex ∨
    before.currentStageIndex < after.currentStageIndex ∧
      after.currentStageIndex < before.stages.length
  entered : after.currentStageGeneration = before.currentStageGeneration ∨ after.history ≠ []
  edits : Relation.ReflTransGen (PlanEdit strict) before after

/-! ## Effects on the engine -/

/-- What an operation may do: the bindings it may append, the plans it may edit, the plans
it may drive on, whether it may retire a version, and whether it settles no stage
generation twice. -/
structure Permit where
  grants : AuthorityBinding → Prop := fun _ => True
  edits : UInt64 → Prop := fun _ => True
  drives : UInt64 → Prop := fun _ => True
  retires : Prop := True
  strict : Prop := False

/-- A binding the engine may append: it is live, sound, and of a registered version that
is not retired, in a registered scope at no later generation. It names a sequence handed
out, and a stored plan of its version at its generation and the current generation of its
version, or repeats these two from a binding of the scope. -/
structure Grantable (s : EngineState) (binding : AuthorityBinding) : Prop where
  live : binding.superseded = false
  sound : malformed binding = none
  scope : ∃ record, s.scopes.find binding.scope = some record ∧
    binding.scopeGeneration ≤ record.generation
  sequence : binding.grantedSequence.valid = true ∧ binding.grantedSequence ≤ s.sequence
  version : ∃ record, s.versionOf binding.model binding.version = some record ∧
    record.retired = false
  origin :
    ((∃ record, s.versionOf binding.model binding.version = some record ∧
        binding.modelGeneration = record.generation) ∧
      (binding.rollout.valid = true ∨ binding.rolloutGeneration.valid = true →
        ∃ plan, s.rollouts.get? binding.rollout.raw = some plan ∧
        plan.generation = binding.rolloutGeneration ∧ plan.model = binding.model ∧
        plan.candidate = binding.version)) ∨
    ∃ source ∈ s.authority.bindingsFor binding.scope,
      source.model = binding.model ∧ source.version = binding.version ∧
      source.modelGeneration = binding.modelGeneration ∧ source.rollout = binding.rollout ∧
      source.rolloutGeneration = binding.rolloutGeneration

/-- One effect of a composite operation. -/
inductive Effect (c : EngineConfig) (p : Permit) : EngineState → EngineState → Prop
  | bump (s : EngineState) : Effect c p s s.bumpSequence
  | editVersion (s : EngineState) (model : ModelId) (version : ModelVersionId)
      (f : ModelVersionRecord → ModelVersionRecord)
      (hf : ∀ record, s.versionOf model version = some record → VersionEdit c record (f record)) :
      Effect c p s (s.modifyVersion model version f)
  | retire (s : EngineState) (model : ModelId) (version : ModelVersionId) (hp : p.retires)
      (hfree : ∀ scope, ∀ b ∈ s.authority.bindingsFor scope,
        b.ofVersion model version = true → b.live = false) :
      Effect c p s (s.advanceVersion model version .retired)
  | touch (s : EngineState) (scope : ScopeId) : Effect c p s (s.touchScope scope)
  | weaken (s : EngineState) (table : AuthorityTable) (h : s.authority.Weakened table) :
      Effect c p s { s with authority := table }
  | append (s : EngineState) (mid : AuthorityTable) (binding : AuthorityBinding)
      (hmid : s.authority.Weakened mid)
      (hroom : binding.kind = .exclusive → s.authority.exclusives binding.scope ≤ 1 →
        mid.exclusives binding.scope = 0)
      (hbinding : Grantable s binding) (hp : p.grants binding) :
      Effect c p s { s with authority := mid.push binding }
  | editPlan (s : EngineState) (key : UInt64) (f : RolloutPlan → RolloutPlan) (hp : p.edits key)
      (hf : ∀ plan, s.rollouts.get? key = some plan → PlanStep (p.drives key) p.strict plan (f plan)) :
      Effect c p s { s with rollouts := s.rollouts.modify key f }
  | withdrawFacts (s : EngineState) (version : ModelVersionId) :
      Effect c p s { s with compatibility := s.compatibility.invalidateVersion version }
  | withdrawEvidence (s : EngineState) (version : ModelVersionId) (current : ModelGeneration) :
      Effect c p s
        { s with evidence := s.evidence.invalidateModelGeneration version current }
  | spendPromotion (s : EngineState) (promotion : PromotionId) :
      Effect c p s
        { s with
          nextPromotionId := promotion.raw + 1
          committedPromotions := s.committedPromotions.insert promotion.raw () }
  | spendRollback (s : EngineState) (rollout : UInt64) (rollback : RollbackId)
      (generation : RollbackGeneration) :
      Effect c p s (s.commitRollback rollout rollback generation)

/-- A chain of effects. -/
def Chain (c : EngineConfig) (p : Permit) : EngineState → EngineState → Prop :=
  Relation.ReflTransGen (Effect c p)

/-- A chain of effects during which the sequence advances. -/
def Moves (c : EngineConfig) (p : Permit) (s s' : EngineState) : Prop :=
  ∃ mid, Chain c p s mid ∧ Chain c p mid.bumpSequence s'

/-- Nothing happens, or the sequence advances. -/
def Progresses (c : EngineConfig) (p : Permit) (s s' : EngineState) : Prop :=
  s' = s ∨ Moves c p s s'

variable {c : EngineConfig} {p q : Permit} {s s' s'' : EngineState}

/-! ## Chains -/

theorem Chain.refl (s : EngineState) : Chain c p s s := Relation.ReflTransGen.refl

theorem Chain.trans (h : Chain c p s s') (h' : Chain c p s' s'') : Chain c p s s'' :=
  Relation.ReflTransGen.trans h h'

theorem Chain.tail (h : Chain c p s s') (h' : Effect c p s' s'') : Chain c p s s'' :=
  Relation.ReflTransGen.tail h h'

theorem Effect.chain (h : Effect c p s s') : Chain c p s s' := Relation.ReflTransGen.single h

theorem Chain.bump (h : Chain c p s s') : Chain c p s s'.bumpSequence := h.tail (.bump s')

/-- What an operation that settles no generation twice does, any other may do. -/
theorem PlanEdit.relax {strict strict' : Prop} (hstrict : strict' → strict)
    {before after : RolloutPlan} (h : PlanEdit strict before after) :
    PlanEdit strict' before after := by
  cases h with
  | note hstages hindex hgeneration hhistory hcompleted hfailed hentered hlive =>
    exact .note hstages hindex hgeneration hhistory hcompleted hfailed hentered hlive
  | settle record hstages hindex hgeneration hhistory hrecord hsettles hadvances hcompleted
      hfailed hentered hlive hopen =>
    exact .settle record hstages hindex hgeneration hhistory hrecord hsettles hadvances hcompleted
      hfailed hentered hlive fun h => hopen (hstrict h)
  | advance decided updated hlive hentered hstage hopen =>
    exact .advance decided updated hlive hentered hstage hopen
  | complete updated hlive hadvanced => exact .complete updated hlive hadvanced
  | enter updated hlive hentered hindex => exact .enter updated hlive hentered hindex
  | next updated hlive hentered hadvanced hnext => exact .next updated hlive hentered hadvanced hnext

/-- A plan step that may do less is one that may do more. -/
theorem PlanStep.relax {driven driven' strict strict' : Prop} {before after : RolloutPlan}
    (h : PlanStep driven strict before after) (hdriven : driven → driven')
    (hstrict : strict' → strict) : PlanStep driven' strict' before after :=
  { h with
    undriven := h.undriven.imp_left hdriven
    edits := Relation.ReflTransGen.mono (fun _ _ hedit => PlanEdit.relax hstrict hedit) _ _
      h.edits }

/-- An operation that may do less does nothing that one that may do more does not. -/
theorem Effect.mono (hgrants : ∀ b, p.grants b → q.grants b) (hedits : ∀ k, p.edits k → q.edits k)
    (hdrives : ∀ k, p.drives k → q.drives k) (hretires : p.retires → q.retires)
    (hstrict : q.strict → p.strict) (h : Effect c p s s') : Effect c q s s' := by
  cases h with
  | bump => exact .bump s
  | editVersion model version f hf => exact .editVersion s model version f hf
  | retire model version hp hfree => exact .retire s model version (hretires hp) hfree
  | touch scope => exact .touch s scope
  | weaken table h => exact .weaken s table h
  | append mid binding hmid hroom hbinding hp =>
    exact .append s mid binding hmid hroom hbinding (hgrants binding hp)
  | editPlan key f hp hf =>
    refine .editPlan s key f (hedits key hp) ?_
    intro plan hplan
    exact (hf plan hplan).relax (hdrives key) hstrict
  | withdrawFacts version => exact .withdrawFacts s version
  | withdrawEvidence version current => exact .withdrawEvidence s version current
  | spendPromotion promotion => exact .spendPromotion s promotion
  | spendRollback rollout rollback generation => exact .spendRollback s rollout rollback generation

theorem Chain.mono (hgrants : ∀ b, p.grants b → q.grants b) (hedits : ∀ k, p.edits k → q.edits k)
    (hdrives : ∀ k, p.drives k → q.drives k) (hretires : p.retires → q.retires)
    (hstrict : q.strict → p.strict) (h : Chain c p s s') : Chain c q s s' := by
  induction h with
  | refl => exact Chain.refl _
  | tail _ hstep ih => exact ih.tail (hstep.mono hgrants hedits hdrives hretires hstrict)

/-- An operation that settles no generation twice is also one that may. -/
theorem Chain.imp_strict {strict : Prop} (h : Chain c p s s') (hstrict : strict → p.strict) :
    Chain c { p with strict } s s' :=
  Chain.mono (p := p) (fun _ h => h) (fun _ h => h) (fun _ h => h) (fun h => h) hstrict h

/-! ## Progress -/

theorem moves_bump (s : EngineState) : Moves c p s s.bumpSequence :=
  ⟨s, Chain.refl s, Chain.refl _⟩

theorem Moves.then (h : Moves c p s s') (h' : Chain c p s' s'') : Moves c p s s'' := by
  obtain ⟨mid, hbefore, hafter⟩ := h
  exact ⟨mid, hbefore, hafter.trans h'⟩

theorem Chain.moves (h : Chain c p s s') (h' : Moves c p s' s'') : Moves c p s s'' := by
  obtain ⟨mid, hbefore, hafter⟩ := h'
  exact ⟨mid, h.trans hbefore, hafter⟩

theorem Moves.chain (h : Moves c p s s') : Chain c p s s' := by
  obtain ⟨mid, hbefore, hafter⟩ := h
  exact hbefore.bump.trans hafter

theorem Progresses.refl (s : EngineState) : Progresses c p s s := Or.inl rfl

theorem Moves.progresses (h : Moves c p s s') : Progresses c p s s' := Or.inr h

theorem Progresses.chain (h : Progresses c p s s') : Chain c p s s' := by
  rcases h with rfl | h
  · exact Chain.refl _
  · exact h.chain

/-! ## What every effect keeps -/

/-- No effect touches the policy or the epoch. -/
theorem Chain.policy_epoch (h : Chain c p s s') : s'.policy = s.policy ∧ s'.epoch = s.epoch := by
  refine Runs.chain_preserves (P := fun t => t.policy = s.policy ∧ t.epoch = s.epoch) ?_ h
    ⟨rfl, rfl⟩
  intro a b hab ha
  cases hab <;> exact ha

/-- The sequence never decreases. -/
theorem Chain.sequence_le (h : Chain c p s s') : s.sequence ≤ s'.sequence := by
  refine Runs.chain_preserves (P := fun t => s.sequence ≤ t.sequence) ?_ h le_rfl
  intro a b hab ha
  cases hab with
  | bump => exact ha.trans (Ident.le_nextGeneration a.sequence)
  | _ => exact ha

/-- An operation that may edit no plan leaves the plans alone. -/
theorem Chain.rollouts_eq (h : Chain c p s s') (hp : ∀ key, ¬p.edits key) :
    s'.rollouts = s.rollouts := by
  refine Runs.chain_preserves (P := fun t => t.rollouts = s.rollouts) ?_ h rfl
  intro a b hab ha
  cases hab with
  | editPlan key f hkey => exact absurd hkey (hp key)
  | _ => exact ha

/-- No effect touches a lease. -/
theorem Chain.workers_eq (h : Chain c p s s') : s'.workers = s.workers := by
  refine Runs.chain_preserves (P := fun t => t.workers = s.workers) ?_ h rfl
  intro a b hab ha
  cases hab <;> exact ha

end LifecycleFabric
