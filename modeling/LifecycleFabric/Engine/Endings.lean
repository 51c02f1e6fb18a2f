import LifecycleFabric.Engine.StageChains

/-!
# How plans and versions are given up, as chains

The explicit failure and supersession of a plan, and the retirement and revalidation of
a version. Only the retirement may retire, and it fences every binding of its version
before it does.
-/

namespace LifecycleFabric

open EngineState AuthorityTable

variable {c : EngineConfig} {p : Permit} {s s' : EngineState}

/-- The permit of an operation that appends nothing and drives nothing. -/
def Permit.closing (strict : Prop := True) : Permit := Permit.undriven (fun _ => False) strict

/-- The permit of a retirement. -/
def Permit.retiring : Permit := { Permit.closing with retires := True }

/-- A supersession settles only a stage that has no decision yet. -/
def supersedesOpen (s : EngineState) (rollout : RolloutId) (generation : RolloutGeneration)
    (epoch : CoordinatorEpoch) : Prop :=
  ∀ plan ∈ s.rolloutOf rollout, ¬(generation.valid = true ∧ generation ≠ plan.generation) →
    ¬(epoch.valid = true ∧ epoch < s.epoch) → plan.superseded = false → plan.stageSettled = false

/-! ## Plans -/

theorem failStage_progresses (s : EngineState) (request : RolloutProgressRequest) :
    Progresses c Permit.closing s (s.failStage request).1 := by
  unfold failStage
  split
  · exact Progresses.refl s
  · rename_i plan hplan
    split
    · exact Progresses.refl s
    · rename_i hrefusal
      split
      · exact Progresses.refl s
      · refine (moves_commitFailure s request.rollout plan _ true trivial ?_).progresses
        intro _ stored hstored
        obtain rfl : plan = stored := Option.some.inj (hplan.symm.trans hstored)
        exact fail_permitted hrefusal

theorem supersedeRollout_progresses (s : EngineState) (rollout : RolloutId)
    (generation : RolloutGeneration) (epoch : CoordinatorEpoch) (detail : Text) {strict : Prop}
    (hopen : strict → supersedesOpen s rollout generation epoch) :
    Progresses c (Permit.closing strict) s
      (s.supersedeRollout rollout generation epoch detail).1 := by
  unfold EngineState.supersedeRollout
  split
  · exact Progresses.refl s
  · rename_i plan hplan
    split
    · exact Progresses.refl s
    · rename_i hgeneration
      split
      · exact Progresses.refl s
      · rename_i hepoch
        split
        · exact Progresses.refl s
        · rename_i hsuperseded
          have hend : Moves c (Permit.closing strict) s _ := (moves_bump s).then
            (chain_modifyRollout s.bumpSequence rollout
              (f := explicitSupersession s.bumpSequence.sequence detail) trivial (by
                intro stored hstored
                obtain rfl : plan = stored := Option.some.inj (hplan.symm.trans hstored)
                exact planStep_explicitSupersession _ _ fun hstrict =>
                  hopen hstrict plan hplan hgeneration hepoch (by simpa using hsuperseded)))
          have hfenced := hend.then (chain_supersedeRolloutBindings _ plan.id plan.generation)
          dsimp only
          split
          · exact hfenced.progresses
          · split
            · exact hfenced.progresses
            · have hdrain := hfenced.then
                (chain_advanceVersion _ plan.model plan.candidate .draining (by decide))
              exact (hdrain.then (moves_stampVersion _ _ _).chain).progresses

/-! ## Retirement -/

theorem authority_touchScopes (scopes : List ScopeId) (s : EngineState) :
    (scopes.foldl touchScope s).authority = s.authority ∧
      (scopes.foldl touchScope s).versions = s.versions := by
  induction scopes generalizing s with
  | nil => exact ⟨rfl, rfl⟩
  | cons scope scopes ih => exact ih (s.touchScope scope)

theorem chain_touchScopes (scopes : List ScopeId) (s : EngineState) :
    Chain c p s (scopes.foldl touchScope s) := by
  induction scopes generalizing s with
  | nil => exact Chain.refl s
  | cons scope scopes ih => exact (chain_touchScope s scope).trans (ih (s.touchScope scope))

theorem authority_withdrawPlans (candidate : ModelVersionId) (keys : List UInt64)
    (s : EngineState) :
    (withdrawPlans candidate keys s).authority = s.authority ∧
      (withdrawPlans candidate keys s).versions = s.versions := by
  induction keys generalizing s with
  | nil => exact ⟨rfl, rfl⟩
  | cons key keys ih =>
    unfold withdrawPlans
    split
    · exact ih s
    · split
      · exact ih s
      · exact ih _

theorem chain_withdrawPlans (hp : ∀ key, p.edits key) (candidate : ModelVersionId)
    (keys : List UInt64) (s : EngineState) : Chain c p s (withdrawPlans candidate keys s) := by
  induction keys generalizing s with
  | nil => exact Chain.refl s
  | cons key keys ih =>
    unfold withdrawPlans
    split
    · exact ih s
    · split
      · exact ih s
      · have hedit : Chain c p s _ := (Chain.refl s).bump.tail
          (.editPlan s.bumpSequence key (retiredPlan s.bumpSequence.sequence) (hp key)
            fun _ _ => planStep_retiredPlan _)
        exact hedit.trans (ih _)

theorem chain_fenceVersion (s : EngineState) (record : ModelVersionRecord) :
    Chain c Permit.retiring s (s.fenceVersion record) := by
  have hfence : Chain c Permit.retiring s _ :=
    chain_supersedeVersion s record.model record.version
  exact (hfence.trans (chain_touchScopes _ _)).trans
    (chain_withdrawPlans (fun _ => trivial) record.version _ _)

/-- Fencing a version rewrites the authority table by superseding its bindings. -/
theorem fenceVersion_authority (s : EngineState) (record : ModelVersionRecord) :
    (s.fenceVersion record).authority =
      s.authority.supersedeVersion record.model record.version :=
  (authority_withdrawPlans _ _ _).1.trans (authority_touchScopes _ _).1

/-- Fencing a version leaves it no live binding, and its record as it was. -/
theorem fenceVersion_fences (s : EngineState) (record : ModelVersionRecord) :
    (s.fenceVersion record).versions = s.versions ∧
      ∀ scope, ∀ b ∈ (s.fenceVersion record).authority.bindingsFor scope,
        b.ofVersion record.model record.version = true → b.live = false := by
  have hversions : (s.fenceVersion record).versions = s.versions :=
    (authority_withdrawPlans _ _ _).2.trans (authority_touchScopes _ _).2
  refine ⟨hversions, ?_⟩
  rw [fenceVersion_authority]
  intro scope b hb hown
  exact not_live_of_supersedeVersion hb hown

/-- A permitted retirement is carried through: every state but the retired one has a legal
path to it. -/
theorem retire_of_allowed {request : RetirementRequest}
    (hallowed : (s.evaluateRetirement request).allowed = true) :
    ∃ record, s.versionOf request.model request.version = some record ∧
      record.retired = false ∧ s.retire request =
        ((((s.fenceVersion record).advanceVersion request.model request.version
          .retired).stampVersion request.model request.version),
          { outcome := .retirementAllowed }) := by
  obtain ⟨record, hrecord, hretired⟩ := retirement_permitted hallowed
  refine ⟨record, hrecord, hretired, ?_⟩
  have hstored : (s.fenceVersion record).versionOf request.model request.version =
      some record := by
    rw [versionOf, (fenceVersion_fences s record).1, ← versionOf, hrecord]
  have hadvanced : ((s.fenceVersion record).advanceDecision request.model request.version
      .retired).allowed = true := by
    simp only [advanceDecision, hstored]
    exact ModelVersionRecord.advanceLifecycleTo_retired
      (by simpa [ModelVersionRecord.retired] using hretired)
  unfold retire
  simp only [hallowed, hrecord, hadvanced, Bool.not_true, Bool.false_eq_true, if_false]

theorem retire_same_of_refused {request : RetirementRequest}
    (hrefused : (s.evaluateRetirement request).allowed = false) :
    s.retire request = (s, s.evaluateRetirement request) := by
  unfold retire
  simp only [hrefused, Bool.not_false, if_true]

theorem retire_progresses (hs : Coherent s) (request : RetirementRequest) :
    Progresses c Permit.retiring s (s.retire request).1 := by
  cases hallowed : (s.evaluateRetirement request).allowed with
  | false =>
    rw [retire_same_of_refused hallowed]
    exact Progresses.refl s
  | true =>
    obtain ⟨record, hrecord, _, hretire⟩ := retire_of_allowed hallowed
    obtain ⟨hmodel, hversion⟩ := versionKey_inj.mp (hs.versions _ record hrecord)
    obtain ⟨_, hfree⟩ := fenceVersion_fences s record
    rw [← hmodel, ← hversion] at hfree
    have hadvanced := (chain_fenceVersion (c := c) s record).tail
      (.retire _ request.model request.version trivial hfree)
    rw [hretire]
    exact (hadvanced.moves (moves_stampVersion _ _ _)).progresses

/-! ## Revalidation -/

theorem chain_withdrawStanding (s : EngineState) (request : RevalidationRequest)
    (record : ModelVersionRecord) : Chain c p s (s.withdrawStanding request record) := by
  have hfacts : Chain c p s _ := (Effect.withdrawFacts s record.version).chain
  have hrecord := hfacts.trans (chain_annotate _ request.model request.version
    (f := fun record => { record with compatibilityGeneration := {} })
    fun _ => by constructor <;> rfl)
  exact hrecord.tail (.withdrawEvidence _ record.version record.generation.nextGeneration)

theorem chain_supersedeScopes (bindings : List AuthorityBinding) (s : EngineState) :
    Chain c p s (bindings.foldl (fun s binding =>
      s.mapAuthority (·.supersedeScope binding.scope)) s) := by
  induction bindings generalizing s with
  | nil => exact Chain.refl s
  | cons binding bindings ih => exact (chain_supersedeScope s binding.scope).trans (ih _)

theorem revalidate_progresses (s : EngineState) (request : RevalidationRequest) :
    Progresses c Permit.closing s (s.revalidate request).1 := by
  unfold revalidate
  split
  · exact Progresses.refl s
  · rename_i record _
    split
    · exact Progresses.refl s
    · split
      · exact Progresses.refl s
      · have hwithdraw : Chain c Permit.closing s _ := chain_withdrawStanding s request record
        have hfence := hwithdraw.trans (chain_supersedeScopes
          (((s.withdrawStanding request record).authority.bindingsForVersion record.model
            record.version).filter
              fun binding => binding.live && decide (binding.kind ≠ .exclusive)) _)
        have hmove := hfence.trans (chain_advanceVersion _ request.model request.version
          .revalidationRequired (by decide))
        exact (hmove.moves (moves_stampVersion _ _ _)).progresses

end LifecycleFabric
