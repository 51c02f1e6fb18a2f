import LifecycleFabric.Engine.Plans

/-!
# Live plans

A candidate never has two live plans, and a plan that stopped being live stays so. The
rollback target of a live plan stays usable when it is usable at the creation of the plan.
-/

namespace LifecycleFabric

open EngineState Runs

variable {c : EngineConfig} {s : EngineState} {plan plan' : RolloutPlan}

/-! ## One live plan for each candidate -/

/-- Two live plans have different candidates. -/
def OneLivePlan (s : EngineState) : Prop :=
  ∀ key key' plan plan', s.rollouts.get? key = some plan → s.rollouts.get? key' = some plan' →
    plan.live = true → plan'.live = true → plan.candidate = plan'.candidate → key = key'

theorem step_oneLivePlan (hs : Coherent s) (h : OneLivePlan s) {op : Operation}
    (hop : op.isImport = false) : OneLivePlan (step c s op) := by
  intro key key' plan plan' hplan hplan' hlive hlive' hsame
  rcases step_plan_origin hs hop hplan with ⟨before, hbefore, hstep⟩ |
    ⟨request, hcreate, hplanned, _, hkey⟩
  · rcases step_plan_origin hs hop hplan' with ⟨before', hbefore', hstep'⟩ |
      ⟨request, _, hplanned, _⟩
    · refine h key key' before before' hbefore hbefore' (hstep.live hlive) (hstep'.live hlive') ?_
      rw [← hstep.candidate, ← hstep'.candidate]
      exact hsame
    · -- The created plan found no live plan of its candidate.
      have hended := (planned_of_plannedRollout hplanned).alone hbefore
        (hstep.candidate.symm.trans hsame)
      rw [hstep.live hlive] at hended
      cases hended
  · rcases step_plan_origin hs hop hplan' with ⟨before', hbefore', hstep'⟩ |
      ⟨request', hcreate', hplanned', _, hkey'⟩
    · have hended := (planned_of_plannedRollout hplanned).alone hbefore'
        (hstep'.candidate.symm.trans hsame.symm)
      rw [hstep'.live hlive'] at hended
      cases hended
    · rw [hcreate] at hcreate'
      obtain rfl := Operation.createRollout.inj hcreate'
      obtain rfl := Option.some.inj (hplanned.symm.trans hplanned')
      exact hkey.trans hkey'.symm

/-- A plan that is not live stays in the store, not live. -/
theorem step_ended (hs : Coherent s) {op : Operation} (hop : op.isImport = false) {key : UInt64}
    (hplan : s.rollouts.get? key = some plan) (hended : plan.live = false) :
    ∃ later, (step c s op).rollouts.get? key = some later ∧ later.live = false := by
  obtain ⟨later, hlater, hstep⟩ := step_plan_stands (c := c) hs hop hplan
  refine ⟨later, hlater, ?_⟩
  by_contra hlive
  rw [Bool.not_eq_false] at hlive
  rw [hstep.live hlive] at hended
  cases hended

/-- Without imports, a candidate never has two live plans, and a plan that stopped being
live never becomes live again. -/
theorem one_live_plan {ops rest : List Operation} (hops : ∀ op ∈ ops ++ rest, op.isImport = false) :
    OneLivePlan (runOps c (init c) ops) ∧
      ∀ key plan, (runOps c (init c) ops).rollouts.get? key = some plan → plan.live = false →
        ∃ later, (runOps c (init c) (ops ++ rest)).rollouts.get? key = some later ∧
          later.live = false := by
  have hfirst : ∀ op ∈ ops, op.isImport = false := fun op hop =>
    hops op (List.mem_append_left rest hop)
  have hsecond : ∀ op ∈ rest, op.isImport = false := fun op hop =>
    hops op (List.mem_append_right ops hop)
  have hstart : Coherent (init c) ∧ OneLivePlan (init c) := by
    refine ⟨coherent_init c, ?_⟩
    intro key key' plan plan' hplan
    cases hplan
  obtain ⟨hcoherent, hone⟩ := Runs.run_preserves (step c)
    (P := fun t => Coherent t ∧ OneLivePlan t)
    (fun t op ht hop => ⟨(step_cases ht.1 op).coherent ht.1, step_oneLivePlan ht.1 ht.2 hop⟩)
    (along_of_forall (step c) hfirst) hstart
  refine ⟨hone, ?_⟩
  intro key plan hplan hended
  have hrun := Runs.run_preserves (step c)
    (P := fun t => Coherent t ∧ ∃ later, t.rollouts.get? key = some later ∧ later.live = false)
    (fun t op ht hop => by
      obtain ⟨hcoherent, mid, hmid, hmidEnded⟩ := ht
      exact ⟨(step_cases hcoherent op).coherent hcoherent,
        step_ended hcoherent hop hmid hmidEnded⟩)
    (along_of_forall (step c) hsecond) ⟨hcoherent, plan, hplan, hended⟩
  unfold runOps at hrun ⊢
  rw [Runs.run_append]
  exact hrun.2

/-! ### A plan and its supersession -/

/-- A rollout of the only version is planned, with a rollback target. -/
def plannedTo (target : ModelVersionId) : List Operation :=
  [.registerModel [109] [] .synthetic,
    .registerVersion
      { model := ⟨1⟩, label := [49]
        artifact := { setId := ⟨1⟩, generation := ⟨1⟩, digest := [97] } },
    .publishCompatibility ⟨1⟩ { key := [101] } .compatible [] .synthetic,
    .promote { model := ⟨1⟩, candidate := ⟨1⟩, scope := ⟨1⟩, environmentKey := [101] },
    .createRollout
      { model := ⟨1⟩, candidate := ⟨1⟩, rootScope := ⟨1⟩, rollbackTarget := target
        cohorts := [{ name := [99], scopes := [⟨1⟩] }]
        stages := [{ name := [115], cohortIndices := [0] }] }]

theorem one_live_plan_witness :
    OneLivePlan (runOps {} (init {}) (plannedTo {})) ∧
      ∀ key plan, (runOps {} (init {}) (plannedTo {})).rollouts.get? key = some plan →
        plan.live = false →
          ∃ later, (runOps {} (init {}) (plannedTo {} ++
            [.supersedeRollout ⟨1⟩ ⟨1⟩ {} []])).rollouts.get? key = some later ∧
              later.live = false :=
  one_live_plan (by decide)

/-! ## The rollback target of a live plan -/

/-- A version that a plan of a candidate can be rolled back to: another registered version
of the model that is not retired. -/
def EngineState.UsableTarget (s : EngineState) (model : ModelId)
    (candidate target : ModelVersionId) : Prop :=
  target ≠ candidate ∧ ∃ record, s.versionOf model target = some record ∧ record.retired = false

/-- Every live plan that names a rollback target can be rolled back to it. -/
def TargetsUsable (s : EngineState) : Prop :=
  ∀ key plan, s.rollouts.get? key = some plan → plan.live = true →
    plan.rollbackTarget.valid = true →
      s.UsableTarget plan.model plan.candidate plan.rollbackTarget

/-- A rollout that is created names a rollback target that can be used, if any. -/
def Operation.PlansUsableTarget (c : EngineConfig) (s : EngineState) : Operation → Prop
  | .createRollout request =>
    (s.plannedRollout c request).isSome = true → s.rollouts.get? s.nextRolloutId = none →
      request.rollbackTarget.valid = true →
        s.UsableTarget request.model request.candidate request.rollbackTarget
  | _ => True

/-- Every operation but a retirement keeps who is retired. -/
theorem step_version_stands (hs : Coherent s) {op : Operation} (hop : op.isImport = false)
    (hretires : op.retires = false) {model : ModelId} {version : ModelVersionId}
    {record : ModelVersionRecord} (hrecord : s.versionOf model version = some record) :
    ∃ record', (step c s op).versionOf model version = some record' ∧
      record'.retired = record.retired := by
  have hcase := step_cases (c := c) hs op
  generalize step c s op = s' at hcase ⊢
  cases hcase with
  | aside h =>
    obtain ⟨record', hrecord', hedits⟩ := h.versions _ record hrecord
    refine ⟨record', hrecord', ?_⟩
    rw [Bool.eq_iff_iff]
    exact (VersionEdit.same_of_chain hedits).2.2.1
  | chain p _ _ hpermit h =>
    refine h.version_stands ?_ hrecord
    intro hp
    rw [hpermit hp] at hretires
    cases hretires
  | recover => cases hop

/-- A retirement changes the record of its version only. -/
theorem retire_versionOf (s : EngineState) (request : RetirementRequest) {model : ModelId}
    {version : ModelVersionId} (hother : ¬(model = request.model ∧ version = request.version)) :
    (s.retire request).1.versionOf model version = s.versionOf model version := by
  cases hallowed : (s.evaluateRetirement request).allowed with
  | false => rw [retire_same_of_refused hallowed]
  | true =>
    obtain ⟨record, _, _, hretire⟩ := retire_of_allowed hallowed
    have hfenced : (s.fenceVersion record).versionOf model version =
        s.versionOf model version := by
      unfold versionOf
      rw [(fenceVersion_fences s record).1]
    rw [hretire]
    unfold stampVersion advanceVersion
    dsimp only
    rw [versionOf_modifyVersion, versionOf_bumpSequence, versionOf_modifyVersion, hfenced]
    simp only [if_neg hother, Option.map_id']

/-- The rollback target of a live plan is not retired. -/
theorem retire_refused_of_target (hs : Coherent s) {request : RetirementRequest} {key : UInt64}
    (hplan : s.rollouts.get? key = some plan) (hlive : plan.live = true)
    (htarget : plan.rollbackTarget = request.version) :
    (s.evaluateRetirement request).allowed = false := by
  rw [← Bool.not_eq_true]
  intro hallowed
  obtain ⟨record, hrecord, hfaults⟩ := evaluateRetirement_allowed_iff.mp hallowed
  obtain ⟨_, hversion⟩ := versionKey_inj.mp (hs.versions _ record hrecord)
  simp only [retirementFaults, List.append_eq_nil_iff] at hfaults
  have hrollouts := hfaults.1.1.2
  simp only [retirementRolloutFaults, List.append_eq_nil_iff, List.flatMap_eq_nil_iff] at hrollouts
  have hfree := hrollouts.2 plan (OrdMap.mem_values_iff.mpr ⟨key, hplan⟩)
  simp only [hlive, Bool.not_true, Bool.false_eq_true, if_false, List.append_eq_nil_iff,
    faultIf_eq_nil] at hfree
  exact hfree.2 (htarget.trans hversion)

/-- What a live plan can be rolled back to stays usable. -/
theorem step_usable (hs : Coherent s) {op : Operation} (hop : op.isImport = false) {key : UInt64}
    (hplan : s.rollouts.get? key = some plan) (hlive : plan.live = true)
    (husable : s.UsableTarget plan.model plan.candidate plan.rollbackTarget) :
    (step c s op).UsableTarget plan.model plan.candidate plan.rollbackTarget := by
  obtain ⟨hother, record, hrecord, hretired⟩ := husable
  refine ⟨hother, ?_⟩
  cases hretires : op.retires with
  | false =>
    obtain ⟨record', hrecord', hsame⟩ := step_version_stands (c := c) hs hop hretires hrecord
    exact ⟨record', hrecord', hsame.trans hretired⟩
  | true =>
    cases op with
    | retire request =>
      refine ⟨record, ?_, hretired⟩
      change (s.retire request).1.versionOf plan.model plan.rollbackTarget = some record
      by_cases htarget : plan.rollbackTarget = request.version
      · rw [retire_same_of_refused (retire_refused_of_target hs hplan hlive htarget)]
        exact hrecord
      · rw [retire_versionOf s request fun h => htarget h.2]
        exact hrecord
    | _ => cases hretires

/-- Creating a rollout registers no version. -/
theorem createRollout_versionOf_none (request : RolloutPlanRequest) {model : ModelId}
    {version : ModelVersionId} (hnone : s.versionOf model version = none) :
    (s.createRollout c request).1.versionOf model version = none := by
  unfold createRollout
  split
  · exact hnone
  · split
    · exact hnone
    · dsimp only
      split
      · exact hnone
      · split
        · exact hnone
        · split
          · exact hnone
          · change (modifyVersion _ _ _ _).versionOf model version = none
            rw [versionOf_modifyVersion]
            exact Option.map_eq_none_iff.mpr hnone

/-- What can be used after a rollout is created could be used before. -/
theorem usable_of_createRollout (hs : Coherent s) {request : RolloutPlanRequest}
    {model : ModelId} {candidate target : ModelVersionId}
    (h : (step c s (.createRollout request)).UsableTarget model candidate target) :
    s.UsableTarget model candidate target := by
  obtain ⟨hother, record', hrecord', hretired⟩ := h
  refine ⟨hother, ?_⟩
  cases hrecord : s.versionOf model target with
  | none =>
    have hnone : (step c s (.createRollout request)).versionOf model target = none :=
      createRollout_versionOf_none request hrecord
    rw [hnone] at hrecord'
    cases hrecord'
  | some record =>
    have hop : (Operation.createRollout request).isImport = false := rfl
    obtain ⟨after, hafter, hsame⟩ := step_version_stands (c := c) hs hop rfl hrecord
    obtain rfl := Option.some.inj (hafter.symm.trans hrecord')
    exact ⟨record, rfl, hsame.symm.trans hretired⟩

theorem step_targetsUsable_iff (hs : Coherent s) (h : TargetsUsable s) {op : Operation}
    (hop : op.isImport = false) : TargetsUsable (step c s op) ↔ op.PlansUsableTarget c s := by
  have hkept : ∀ key plan plan', s.rollouts.get? key = some plan →
      PlanStep True False plan plan' → plan'.live = true → plan'.rollbackTarget.valid = true →
        (step c s op).UsableTarget plan'.model plan'.candidate plan'.rollbackTarget := by
    intro key plan plan' hplan hstep hlive hvalid
    rw [hstep.target] at hvalid
    rw [hstep.model, hstep.candidate, hstep.target]
    exact step_usable hs hop hplan (hstep.live hlive) (h key plan hplan (hstep.live hlive) hvalid)
  by_cases hcreate : ∃ request, op = .createRollout request
  · obtain ⟨request, rfl⟩ := hcreate
    constructor
    · intro hafter hplanned hfree hvalid
      obtain ⟨plan, hplan⟩ := Option.isSome_iff_exists.mp hplanned
      have hspec := planned_of_plannedRollout hplan
      rw [← hspec.id] at hfree
      have husable := hafter plan.id.raw plan (step_creates hplan hfree) hspec.live
        (hspec.target ▸ hvalid)
      obtain ⟨record, hrecord, _, hmodel, hcandidate⟩ := hspec.candidate
      obtain ⟨hmodel', hversion'⟩ := versionKey_inj.mp (hs.versions _ record hrecord)
      rw [hmodel, ← hmodel', hcandidate, ← hversion', hspec.target] at husable
      exact usable_of_createRollout hs husable
    · intro hcondition key plan' hplan' hlive hvalid
      rcases step_plan_origin hs hop hplan' with ⟨plan, hplan, hstep⟩ |
        ⟨request', hop', hplanned, hfree, hkey⟩
      · exact hkept key plan plan' hplan hstep hlive hvalid
      · obtain rfl := Operation.createRollout.inj hop'
        have hspec := planned_of_plannedRollout hplanned
        rw [hkey, hspec.id] at hfree
        rw [hspec.target] at hvalid
        have husable := hcondition (by simp [hplanned]) hfree hvalid
        obtain ⟨record, hrecord, _, hmodel, hcandidate⟩ := hspec.candidate
        obtain ⟨hmodel', hversion'⟩ := versionKey_inj.mp (hs.versions _ record hrecord)
        rw [hmodel, ← hmodel', hcandidate, ← hversion', hspec.target]
        obtain ⟨hother, target, htarget, hretired⟩ := husable
        obtain ⟨after, hafter, hsame⟩ := step_version_stands (c := c) hs hop rfl htarget
        exact ⟨hother, after, hafter, hsame.trans hretired⟩
  · refine iff_of_true ?_ ?_
    · intro key plan' hplan' hlive hvalid
      rcases step_plan_origin hs hop hplan' with ⟨plan, hplan, hstep⟩ | ⟨request, hop', _⟩
      · exact hkept key plan plan' hplan hstep hlive hvalid
      · exact absurd ⟨request, hop'⟩ hcreate
    · cases op with
      | createRollout request => exact absurd ⟨request, rfl⟩ hcreate
      | _ => trivial

/-- Along a run without imports, every live plan that names a rollback target can be rolled
back to it exactly when every rollout that is created names a usable one, if any. -/
theorem live_targets_usable_iff {ops : List Operation}
    (hops : ∀ op ∈ ops, op.isImport = false) :
    Always (step c) TargetsUsable (init c) ops ↔
      Along (step c) (fun s op => op.PlansUsableTarget c s) (init c) ops := by
  refine Runs.always_iff_along (step c) (P := Coherent)
    (fun s op hs _ => (step_cases hs op).coherent hs)
    (fun s op hs h hop => step_targetsUsable_iff hs h hop) hops (coherent_init c) ?_
  intro key plan hplan
  cases hplan

theorem live_targets_usable_witness :
    Always (step {}) TargetsUsable (init {}) (plannedTo {}) ↔
      Along (step {}) (fun s op => op.PlansUsableTarget {} s) (init {}) (plannedTo {}) :=
  live_targets_usable_iff (by decide)

/-- A rollout is created with a rollback target that was never registered. -/
theorem unregistered_target_planned :
    ¬Always (step {}) TargetsUsable (init {}) (plannedTo ⟨9⟩) := by
  intro h
  have hplanned : ((run (step {}) (init {}) (plannedTo ⟨9⟩)).rollouts.get? 1).map
      (fun plan => (plan.live, plan.model, plan.rollbackTarget)) = some (true, ⟨1⟩, ⟨9⟩) := by
    decide +kernel
  obtain ⟨plan, hplan, hfields⟩ := Option.map_eq_some_iff.mp hplanned
  simp only [Prod.mk.injEq] at hfields
  obtain ⟨hlive, hmodel, htarget⟩ := hfields
  obtain ⟨_, record, hrecord, _⟩ := h (plannedTo ⟨9⟩) List.prefix_rfl 1 plan hplan hlive
    (by rw [htarget]; decide)
  have hnone : (run (step {}) (init {}) (plannedTo ⟨9⟩)).versionOf ⟨1⟩ ⟨9⟩ = none := by
    decide +kernel
  rw [hmodel, htarget, hnone] at hrecord
  cases hrecord

end LifecycleFabric
