import LifecycleFabric.Properties.LivePlans
import LifecycleFabric.Properties.ScopeGenerations

/-!
# What a retirement does

A retirement happens exactly when its gate allows it. It then withdraws every binding and
every plan of the version, moves the generation of each scope it was bound in, and touches
no other version.
-/

namespace LifecycleFabric

open EngineState AuthorityTable

variable {c : EngineConfig} {s : EngineState}

/-! ## The sweep of the plans -/

/-- The sweep picks the plans of the candidate, live or not. -/
theorem planLoop_withdrawPlans (candidate : ModelVersionId) :
    PlanLoop (withdrawPlans candidate) (fun plan => decide (plan.candidate = candidate))
      retiredPlan fun _ table => table where
  marked _ _ := rfl
  nil _ := rfl
  skip key keys t hskip := by
    rw [withdrawPlans]
    cases hplan : t.rollouts.get? key with
    | none => rfl
    | some plan =>
      rw [hplan, Option.any_some, decide_eq_false_iff_not] at hskip
      dsimp only
      rw [if_pos hskip]
  take key keys t plan hplan hown := by
    rw [withdrawPlans, hplan]
    dsimp only
    rw [if_neg (by simpa using hown)]
    refine ⟨_, t.bumpSequence.sequence, rfl, rfl, ?_, ?_⟩
    · refine (OrdMap.get?_modify_self _ _ _).trans ?_
      rw [bumpSequence_rollouts, hplan]
      rfl
    · intro other hne
      exact OrdMap.get?_modify_of_ne _ _ hne

/-- Fencing a version leaves it no live plan. -/
theorem fenceVersion_ends (s : EngineState) (record : ModelVersionRecord) {key : UInt64}
    {plan : RolloutPlan} (hplan : (s.fenceVersion record).rollouts.get? key = some plan)
    (hown : plan.candidate = record.version) : plan.live = false := by
  unfold fenceVersion at hplan
  dsimp only at hplan
  generalize List.foldl touchScope _ _ = t at hplan
  have hsweep : Chain {} {} t (withdrawPlans record.version t.rollouts.keys t) :=
    chain_withdrawPlans (fun _ => trivial) record.version _ t
  cases hbefore : t.rollouts.get? key with
  | none =>
    rw [hsweep.plan_absent hbefore] at hplan
    cases hplan
  | some before =>
    obtain ⟨after, hafter, hstep⟩ := hsweep.plan_stands hbefore
    obtain rfl := Option.some.inj (hafter.symm.trans hplan)
    have hmem : key ∈ t.rollouts.keys := OrdMap.mem_keys_iff.mpr ⟨before, hbefore⟩
    obtain ⟨ended, hended, hsuperseded⟩ := (planLoop_withdrawPlans record.version).superseded
      t.rollouts.nodup_keys hmem hbefore (decide_eq_true (hstep.candidate.symm.trans hown))
    obtain rfl := Option.some.inj (hended.symm.trans hplan)
    simp [RolloutPlan.live, hsuperseded]

/-! ## The effect -/

/-- Superseding the bindings of a version leaves the others as they were. -/
theorem filter_others_withdraw (model : ModelId) (version : ModelVersionId)
    (bindings : List AuthorityBinding) :
    (bindings.map fun b => if b.ofVersion model version then b.supersede else b).filter
      (!·.ofVersion model version) = bindings.filter (!·.ofVersion model version) := by
  induction bindings with
  | nil => rfl
  | cons b bindings ih =>
    rw [List.map_cons, List.filter_cons, List.filter_cons, ih]
    cases hown : b.ofVersion model version with
    | false => simp [hown]
    | true =>
      have hsuperseded : b.supersede.ofVersion model version = true := hown
      simp [hsuperseded]

/-- What a retirement of a version does. -/
structure Retires (s t : EngineState) (model : ModelId) (version : ModelVersionId) : Prop where
  retired : ∃ record, t.versionOf model version = some record ∧ record.state = .retired
  superseded : ∀ scope, ∀ binding ∈ t.authority.bindingsFor scope,
    binding.ofVersion model version = true → binding.superseded = true
  plans : ∀ key plan, t.rollouts.get? key = some plan → plan.candidate = version →
    plan.live = false
  scopes : ∀ scope, (∃ binding ∈ s.authority.bindingsFor scope,
    binding.ofVersion model version = true) → ∀ record, s.scopes.find scope = some record →
      ¬record.generation.Saturated → ∃ after, t.scopes.find scope = some after ∧
        record.generation < after.generation
  versions : ∀ otherModel otherVersion, ¬(otherModel = model ∧ otherVersion = version) →
    t.versionOf otherModel otherVersion = s.versionOf otherModel otherVersion
  bindings : ∀ scope, (t.authority.bindingsFor scope).filter (!·.ofVersion model version) =
    (s.authority.bindingsFor scope).filter (!·.ofVersion model version)

/-- A permitted retirement has its whole effect. -/
theorem retire_retires (hs : Coherent s) {request : RetirementRequest}
    (hallowed : (s.evaluateRetirement request).allowed = true) :
    Retires s (s.retire request).1 request.model request.version := by
  obtain ⟨record, hrecord, hactive, hretire⟩ := retire_of_allowed hallowed
  obtain ⟨hmodel, hversion⟩ := versionKey_inj.mp (hs.versions _ record hrecord)
  have hauthority : (s.retire request).1.authority =
      s.authority.supersedeVersion request.model request.version := by
    rw [hretire, hmodel, hversion, ← fenceVersion_authority]
    simp [stampVersion, advanceVersion]
  have hrollouts : (s.retire request).1.rollouts = (s.fenceVersion record).rollouts := by
    rw [hretire]
    simp [stampVersion, advanceVersion]
  have hscopes : (s.retire request).1.scopes = (s.fenceVersion record).scopes := by
    rw [hretire]
    simp [stampVersion, advanceVersion]
  constructor
  · have hserves : record.state ≠ .retired := by simpa [ModelVersionRecord.retired] using hactive
    have hreaches := (LifecycleState.reaches_of_ne_retired hserves).1
    have hstored : (s.fenceVersion record).versionOf request.model request.version =
        some record := by
      rw [versionOf, (fenceVersion_fences s record).1, ← versionOf, hrecord]
    rw [hretire, stampVersion, advanceVersion, versionOf_modifyVersion, versionOf_bumpSequence,
      versionOf_modifyVersion, hstored]
    refine ⟨_, rfl, ?_⟩
    simp [ModelVersionRecord.advanceLifecycleTo_state hreaches]
  · intro scope binding hbinding hown
    rw [hauthority] at hbinding
    have hdead := not_live_of_supersedeVersion hbinding hown
    simpa [AuthorityBinding.live] using hdead
  · intro key plan hplan hown
    rw [hrollouts] at hplan
    exact fenceVersion_ends s record hplan (hown.trans hversion)
  · rintro scope ⟨binding, hbinding, hown⟩ before hbefore hunsaturated
    rw [hmodel, hversion] at hown
    have htouched := fenceVersion_touches hs hbinding hown (by rw [hbefore]; rfl)
    have hgrown : Grown s (s.fenceVersion record) :=
      (chain_fenceVersion (c := {}) s record).grown
    obtain ⟨after, hafter, _⟩ := hgrown.scopes scope before hbefore
    refine ⟨after, by rw [hscopes, hafter], ?_⟩
    unfold Touched at htouched
    simp only [scopeObservation, hbefore, hafter, Option.map_some, Option.getD_some] at htouched
    exact htouched.resolve_right hunsaturated
  · intro model version hother
    exact retire_versionOf s request hother
  · intro scope
    rw [hauthority, supersedeVersion, bindingsFor_mapAll]
    exact filter_others_withdraw request.model request.version _

/-- A retirement is accepted exactly when its gate allows it. A refused one changes nothing,
and an accepted one has its whole effect. -/
theorem retire_iff (hs : ReachableState c s) (request : RetirementRequest) :
    ((s.retire request).2.allowed = true ↔ (s.evaluateRetirement request).allowed = true) ∧
      ((s.retire request).2.allowed = false → (s.retire request).1 = s) ∧
      ((s.retire request).2.allowed = true →
        Retires s (s.retire request).1 request.model request.version) := by
  cases hallowed : (s.evaluateRetirement request).allowed with
  | false =>
    rw [retire_same_of_refused hallowed]
    simp [hallowed]
  | true =>
    have heffect := retire_retires hs.coherent hallowed
    obtain ⟨record, _, _, hretire⟩ := retire_of_allowed hallowed
    have haccepted : (s.retire request).2.allowed = true := by
      rw [hretire]
      rfl
    rw [haccepted]
    exact ⟨iff_of_true rfl rfl, Bool.noConfusion, fun _ => heffect⟩

/-! ### A version replaced and retired -/

/-- The second version takes the scope of the first over, and names the third as what it
would be rolled back to. -/
def replacedVersion : List Operation :=
  [.registerModel [109] [] .synthetic,
    .registerVersion
      { model := ⟨1⟩, label := [49]
        artifact := { setId := ⟨1⟩, generation := ⟨1⟩, digest := [97] } },
    .registerVersion
      { model := ⟨1⟩, label := [50]
        artifact := { setId := ⟨1⟩, generation := ⟨1⟩, digest := [97] } },
    .registerVersion
      { model := ⟨1⟩, label := [51]
        artifact := { setId := ⟨1⟩, generation := ⟨1⟩, digest := [97] } },
    .publishCompatibility ⟨1⟩ { key := [101] } .compatible [] .synthetic,
    .publishCompatibility ⟨2⟩ { key := [101] } .compatible [] .synthetic,
    .publishCompatibility ⟨3⟩ { key := [101] } .compatible [] .synthetic,
    .promote
      { model := ⟨1⟩, candidate := ⟨1⟩, scope := ⟨1⟩, environmentKey := [101]
        requestImmediateCutover := true },
    .promote
      { model := ⟨1⟩, candidate := ⟨2⟩, scope := ⟨1⟩, environmentKey := [101]
        rollbackTarget := ⟨3⟩, requestImmediateCutover := true }]

theorem retire_iff_witness :
    Retires (runOps {} (init {}) replacedVersion)
      ((runOps {} (init {}) replacedVersion).retire { model := ⟨1⟩, version := ⟨1⟩ }).1
      ⟨1⟩ ⟨1⟩ := by
  have hs : ReachableState {} (runOps {} (init {}) replacedVersion) := ⟨_, rfl⟩
  refine (retire_iff hs { model := ⟨1⟩, version := ⟨1⟩ }).2.2 ?_
  decide +kernel

end LifecycleFabric
