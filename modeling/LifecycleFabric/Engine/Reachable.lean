import LifecycleFabric.Engine.Recovery

/-!
# What holds in every reachable state

A step of the engine leaves authority alone, is a chain of effects, or applies a sound
durable state. Coherence, the single exclusive holder of a scope, and the finality of
retirement are proved from these three cases.
-/

namespace LifecycleFabric

open EngineState AuthorityTable

variable {c : EngineConfig} {s : EngineState}

/-! ## What a step can do -/

/-- An operation settles only stages that have no decision yet. -/
def Operation.settlesOpen (c : EngineConfig) (s : EngineState) : Operation → Prop
  | .promote request => request.settlesOpen c s
  | .advanceStage request => request.settlesOpen s
  | .supersedeRollout rollout generation epoch _ => supersedesOpen s rollout generation epoch
  | .rollback request => request.settlesOpen s
  | _ => True

instance (c : EngineConfig) (s : EngineState) (op : Operation) :
    Decidable (op.settlesOpen c s) := by
  delta Operation.settlesOpen PromotionRequest.settlesOpen RollbackRequest.settlesOpen
    RolloutProgressRequest.settlesOpen supersedesOpen EngineState.InflightOpen
  cases op <;> infer_instance

/-- An operation that may drive a plan on. -/
def Operation.drives : Operation → Bool
  | .beginRollout _ => true
  | .advanceStage _ => true
  | _ => false

/-- An operation that may retire a version. -/
def Operation.retires : Operation → Bool
  | .retire _ => true
  | _ => false

/-- A step leaves authority alone, is a chain of effects, or applies a sound state. -/
inductive StepCase (c : EngineConfig) (s : EngineState) : Operation → EngineState → Prop
  | aside {op : Operation} {s' : EngineState} (h : Aside c s s') : StepCase c s op s'
  | chain {op : Operation} {s' : EngineState} (p : Permit) (hp : op.settlesOpen c s → p.strict)
      (hdrives : ∀ key, p.drives key → op.drives = true)
      (hretires : p.retires → op.retires = true) (h : Chain c p s s') : StepCase c s op s'
  | recover (d : DurableState) (newEpoch : CoordinatorEpoch) (recovered : DurableState.Recovered)
      (h : d.Sound c s newEpoch recovered) :
      StepCase c s (.importDurableState d newEpoch) (s.applyDurableState d newEpoch recovered)

theorem step_cases (hs : Coherent s) (op : Operation) : StepCase c s op (step c s op) := by
  cases op with
  | registerModel name family provenance => exact .aside (registerModel_aside s name family _)
  | registerVersion request => exact .aside (registerVersion_aside s request)
  | reviseVersion request =>
    exact .chain _ (fun _ => trivial) (fun _ => False.elim) False.elim
      (reviseVersion_progresses s request).chain
  | registerScope path => exact .aside (registerScope_aside s path)
  | setPolicy policy => exact .aside (setPolicy_aside s policy)
  | setScopePolicy refinement => exact .aside (setScopePolicy_aside s refinement)
  | publishCompatibility version environment outcome detail provenance =>
    exact .aside (publishCompatibility_aside s version environment outcome detail provenance)
  | publishEvidence record => exact .aside (publishEvidence_aside s record)
  | expirePublisherEvidence boot => exact .aside (expirePublisherEvidence_aside s boot)
  | registerWorker registration => exact .aside (registerWorker_aside s registration)
  | fenceWorker worker boot epoch reason =>
    exact .aside (fenceWorker_aside s worker boot epoch reason)
  | setWorkerLiveness worker connected => exact .aside (setWorkerLiveness_aside s worker connected)
  | promote request =>
    exact .chain _ id (fun _ => False.elim) False.elim
      (promote_progresses hs request fun h => h).chain
  | createRollout request => exact .aside (createRollout_aside s request)
  | beginRollout request =>
    cases hplan : s.rolloutOf request.rollout with
    | none =>
      have hstep : step c s (.beginRollout request) = s := by
        simp [step, perform, beginRollout, hplan]
      rw [hstep]
      exact .aside (Aside.refl s)
    | some plan =>
      exact .chain _ (fun _ => trivial) (fun _ _ => rfl) False.elim
        (beginRollout_progresses hs request hplan).chain
  | advanceStage request =>
    cases hplan : s.rolloutOf request.rollout with
    | none =>
      have hstep : step c s (.advanceStage request) = s := by
        simp [step, perform, advanceStage, hplan]
      rw [hstep]
      exact .aside (Aside.refl s)
    | some plan =>
      exact .chain _ id (fun _ _ => rfl) False.elim
        (advanceStage_progresses hs request hplan fun h => h).chain
  | failStage request =>
    exact .chain _ (fun _ => trivial) (fun _ => False.elim) False.elim
      (failStage_progresses s request).chain
  | supersedeRollout rollout generation epoch detail =>
    exact .chain _ id (fun _ => False.elim) False.elim
      (supersedeRollout_progresses s rollout generation epoch detail fun h => h).chain
  | rollback request =>
    exact .chain _ id (fun _ => False.elim) False.elim
      (rollback_progresses hs request fun h => h).chain
  | retire request =>
    exact .chain _ (fun _ => trivial) (fun _ => False.elim) (fun _ => rfl)
      (retire_progresses hs request).chain
  | revalidate request =>
    exact .chain _ (fun _ => trivial) (fun _ => False.elim) False.elim
      (revalidate_progresses s request).chain
  | beginAttempt request => exact .aside (beginAttempt_aside s request)
  | completeAttempt completion => exact .aside (completeAttempt_aside s completion)
  | reconcileAttempt attempt sideEffectObserved epoch detail =>
    exact .aside (reconcileAttempt_aside s attempt sideEffectObserved epoch detail)
  | advanceEpoch expectedCurrent => exact .aside (advanceEpoch_aside s expectedCurrent)
  | importDurableState d newEpoch =>
    rcases importDurableState_cases c s d newEpoch with ⟨hsame, _⟩ | ⟨recovered, hsound, heq⟩
    · have hstep : step c s (.importDurableState d newEpoch) = s := hsame
      rw [hstep]
      exact .aside (Aside.refl s)
    · have hstep : step c s (.importDurableState d newEpoch) =
          s.applyDurableState d newEpoch recovered := congrArg Prod.fst heq
      rw [hstep]
      exact .recover d newEpoch recovered hsound
  | invalidateVolatileState cause => exact .aside (invalidateVolatileState_aside s cause)

/-! ## Coherence -/

theorem coherent_init (c : EngineConfig) : Coherent (init c) where
  versions key record hrecord := by cases hrecord
  rollouts key plan hplan := by cases hplan
  authority scope binding hbinding := by cases hbinding

theorem Aside.coherent {s' : EngineState} (h : Aside c s s') (hs : Coherent s) : Coherent s' where
  versions key record hrecord := by
    cases hstored : s.versions.get? key with
    | none => exact (h.newVersions key record hrecord hstored).2.1
    | some stored =>
      obtain ⟨record', hrecord', hedits⟩ := h.versions key stored hstored
      obtain rfl := Option.some.inj (hrecord'.symm.trans hrecord)
      obtain ⟨hmodel, hversion, _⟩ := VersionEdit.same_of_chain hedits
      rw [hmodel, hversion]
      exact hs.versions key stored hstored
  rollouts key plan hplan := by
    cases hstored : s.rollouts.get? key with
    | none =>
      obtain ⟨created, _, hkey, hstep⟩ := h.newPlans key plan hplan hstored
      rw [hstep.id]
      exact hkey
    | some stored =>
      obtain ⟨plan', hplan', hstep⟩ := h.plans key stored hstored
      obtain rfl := Option.some.inj (hplan'.symm.trans hplan)
      rw [hstep.id]
      exact hs.rollouts key stored hstored
  authority scope binding hbinding := by
    rw [h.authority] at hbinding
    exact hs.authority scope binding hbinding

/-- The labels of a sound state are rebuilt from sound versions. -/
theorem versionSound_of_restored {d : DurableState} {entries : List (VersionKey × ModelVersionRecord)}
    {labels labels' : OrdMap (UInt64 ×ₗ Text) ModelVersionId}
    (h : d.restoreVersionLabels entries labels = .ok labels') :
    ∀ e ∈ entries, d.VersionSound e.1 e.2 := by
  induction entries generalizing labels with
  | nil =>
    intro e he
    cases he
  | cons e entries ih =>
    simp only [DurableState.restoreVersionLabels, Validation.bind_ok, Validation.ensure_ok,
      exists_const] at h
    obtain ⟨_, hsound, _, hrest⟩ := h
    intro e' he'
    rcases List.mem_cons.mp he' with rfl | he'
    · exact DurableState.checkVersion_ok.mp hsound
    · exact ih hrest e' he'

/-- A restored table holds the given bindings, each of which was checked. -/
theorem restored_authority {table restored : AuthorityTable}
    {bindings : OrdMap UInt64 (List AuthorityBinding)}
    (h : table.restore bindings = some restored) :
    restored = { table with bindings } ∧
      ∀ key list, bindings.get? key = some list → restorableScope key list = true := by
  unfold restore at h
  split_ifs at h with hall hroom
  refine ⟨(Option.some.inj h).symm, ?_⟩
  intro key list hlist
  simp only [Bool.not_eq_true', Bool.not_eq_false] at hall
  exact List.all_eq_true.mp hall (key, list) (OrdMap.get?_eq_some_iff.mp hlist)

/-- A binding of a restored table lies in its scope and is live. -/
theorem restored_binding {table restored : AuthorityTable}
    {bindings : OrdMap UInt64 (List AuthorityBinding)}
    (h : table.restore bindings = some restored) {scope : ScopeId} {binding : AuthorityBinding}
    (hbinding : binding ∈ restored.bindingsFor scope) :
    binding.scope = scope ∧ binding.superseded = false ∧ binding ∈ bindings.values.flatten := by
  obtain ⟨rfl, hall⟩ := restored_authority h
  unfold bindingsFor at hbinding
  cases hlist : bindings.get? scope.raw with
  | none =>
    rw [hlist] at hbinding
    cases hbinding
  | some list =>
    rw [hlist, Option.getD_some] at hbinding
    have hscope := hall scope.raw list hlist
    simp only [restorableScope, Bool.and_eq_true, List.all_eq_true] at hscope
    have hrestorable := hscope.1.2 binding hbinding
    simp only [restorableBinding, Bool.and_eq_true, decide_eq_true_eq,
      Bool.not_eq_true'] at hrestorable
    refine ⟨Ident.ext hrestorable.1.1.1.1.1.1, hrestorable.2, ?_⟩
    exact List.mem_flatten.mpr ⟨list, OrdMap.mem_values_iff.mpr ⟨scope.raw, hlist⟩, hbinding⟩

theorem coherent_applyDurableState {d : DurableState} {newEpoch : CoordinatorEpoch}
    {recovered : DurableState.Recovered} (h : d.Sound c s newEpoch recovered) :
    Coherent (s.applyDurableState d newEpoch recovered) where
  versions _ _ hrecord :=
    (versionSound_of_restored h.versionLabels _ (OrdMap.get?_eq_some_iff.mp hrecord)).key
  rollouts _ _ hplan := (h.plans _ (OrdMap.get?_eq_some_iff.mp hplan)).key
  authority _ _ hbinding := (restored_binding h.authority hbinding).1

theorem StepCase.coherent {op : Operation} {s' : EngineState} (h : StepCase c s op s')
    (hs : Coherent s) : Coherent s' := by
  cases h with
  | aside h => exact h.coherent hs
  | chain p _ _ _ h => exact h.coherent hs
  | recover d newEpoch recovered h => exact coherent_applyDurableState h

/-- Every reachable state is coherent. -/
theorem EngineState.ReachableState.coherent (h : ReachableState c s) : Coherent s :=
  Runs.reachable_invariant (P := Coherent) (step c)
    (fun _ op hs => (step_cases hs op).coherent hs) (coherent_init c) h

end LifecycleFabric
