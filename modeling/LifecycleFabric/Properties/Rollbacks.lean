import LifecycleFabric.Engine.Admission
import LifecycleFabric.Properties.Query

/-!
# What a rollback restores

A permitted rollback clears its scope and grants it to the target. The scope holds a
binding of the candidate, so it has room, and the grant can only fail on a target without
identity, which the gate lets through when the policy requires a rollback target. What is
cleared is the whole scope, bindings of other models with it.
-/

namespace LifecycleFabric

open EngineState AuthorityTable

variable {c : EngineConfig} {s s' : EngineState}

/-- The grant of a rollback. -/
def RollbackRequest.grant (request : RollbackRequest) (rollback : RollbackId)
    (rollbackGeneration : RollbackGeneration) : GrantRequest where
  model := request.model
  version := request.target
  scope := request.scope
  kind := .exclusive
  rollback
  rollbackGeneration
  supersedeExisting := true

/-- What follows the grant of a rollback. -/
def EngineState.finishRollback (s : EngineState) (request : RollbackRequest)
    (candidate : ModelVersionRecord) (rollback : RollbackId)
    (rollbackGeneration : RollbackGeneration) : EngineState :=
  let s := s.settleRollback request candidate rollback rollbackGeneration
  let s :=
    if request.rollout.valid then s.stopRollout request.rollout rollback rollbackGeneration else s
  let s := s.commitRollback (if request.rollout.valid then request.rollout.raw else 0) rollback
    rollbackGeneration
  s.touchScope request.scope

/-! ## The commit of a rollback -/

theorem stopRollout_kept (s : EngineState) (rollout : RolloutId) (rollback : RollbackId)
    (generation : RollbackGeneration) :
    (s.stopRollout rollout rollback generation).authority = s.authority ∧
      (s.stopRollout rollout rollback generation).versions = s.versions ∧
      (s.stopRollout rollout rollback generation).scopes = s.scopes := by
  unfold stopRollout
  cases s.rolloutOf rollout with
  | none => simp
  | some plan =>
    dsimp only
    split_ifs
    · simp
    · simp

theorem finishRollback_kept (s : EngineState) (request : RollbackRequest)
    (candidate : ModelVersionRecord) (rollback : RollbackId) (generation : RollbackGeneration) :
    (s.finishRollback request candidate rollback generation).authority =
        s.authority.markDraining candidate.model candidate.version request.scope ∧
      (s.finishRollback request candidate rollback generation).versions =
        (s.settleRollback request candidate rollback generation).versions ∧
      (s.finishRollback request candidate rollback generation).scopes =
        s.scopes.touch request.scope := by
  have hsettled : (s.settleRollback request candidate rollback generation).authority =
        s.authority.markDraining candidate.model candidate.version request.scope ∧
      (s.settleRollback request candidate rollback generation).scopes = s.scopes := by
    unfold settleRollback stampVersion recordRollback advanceVersion
    dsimp only
    split_ifs
    · simp
    · simp
  obtain ⟨hauthority, hscopes⟩ := hsettled
  obtain ⟨hstopped, hversions, hkept⟩ := stopRollout_kept
    (s.settleRollback request candidate rollback generation) request.rollout rollback generation
  unfold finishRollback commitRollback
  dsimp only
  split_ifs
  · simp [hstopped, hauthority, hversions, hkept, hscopes]
  · simp [hauthority, hscopes]

/-- The target is brought to `CURRENT` at its own generation. -/
theorem settleRollback_target {request : RollbackRequest} {target : ModelVersionRecord}
    (candidate : ModelVersionRecord) (rollback : RollbackId) (generation : RollbackGeneration)
    (htarget : s.versionOf request.model request.target = some target)
    (hretired : target.retired = false) (hne : request.target ≠ request.candidate) :
    ∃ restored, (s.settleRollback request candidate rollback generation).versionOf request.model
        request.target = some restored ∧
      restored.state = .current ∧ restored.generation = target.generation := by
  have hreaches : target.state.reaches .current = true := by
    refine (LifecycleState.reaches_of_ne_retired ?_).2.1
    simpa [ModelVersionRecord.retired] using hretired
  have hstate := ModelVersionRecord.advanceLifecycleTo_state hreaches
  have hgeneration : (target.advanceLifecycleTo .current).1.generation = target.generation := by
    obtain ⟨_, _, heq⟩ := ModelVersionRecord.same_of_transitions
      (ModelVersionRecord.advanceLifecycleTo_chain target .current)
    rw [heq]
  have hbump : ∀ t : EngineState, t.bumpSequence.versionOf request.model request.target =
      t.versionOf request.model request.target := fun _ => rfl
  have hauthority : ∀ (t : EngineState) f, (t.mapAuthority f).versionOf request.model
      request.target = t.versionOf request.model request.target := fun _ _ => rfl
  unfold settleRollback stampVersion recordRollback advanceVersion
  dsimp only
  split_ifs
  · simp only [versionOf_modifyVersion, hbump, hauthority, htarget, Option.map_some, and_self,
      if_true, hne, and_false, if_false]
    exact ⟨_, rfl, hstate, hgeneration⟩
  · simp only [versionOf_modifyVersion, hbump, hauthority, htarget, Option.map_some, and_self,
      if_true, hne, and_false, if_false]
    exact ⟨_, rfl, hstate, hgeneration⟩

/-- A permitted rollback is settled by its grant. -/
theorem rollback_eq {request : RollbackRequest} {candidate target : ModelVersionRecord}
    (hgate : (s.evaluateRollback request).allowed = true)
    (hcandidate : s.versionOf request.model request.candidate = some candidate)
    (htarget : s.versionOf request.model request.target = some target) :
    s.rollback request =
      let rollback : RollbackId := ⟨s.nextRollbackId⟩
      let generation := candidate.rollbackGeneration.nextGeneration
      let granted := (s.mapAuthority (·.supersedeScope request.scope)).grantAuthority
        (request.grant rollback generation)
      if !granted.2.allowed then (granted.1, { decision := granted.2 })
      else
        (granted.1.finishRollback request candidate rollback generation,
          { decision := { outcome := .rollbackAllowed }
            rollback
            rollbackGeneration := generation
            restoredScopes := [request.scope] }) := by
  unfold EngineState.rollback
  simp only [hgate, Bool.not_true, Bool.false_eq_true, if_false, hcandidate, htarget]
  rfl

/-- What a permitted rollback may rely on: its candidate holds a binding in its scope. -/
structure CandidateHolds (s : EngineState) (request : RollbackRequest) : Prop where
  model : request.model.valid = true
  version : request.candidate.valid = true
  serves : s.mayServe request.model request.candidate = true
  room : s.authority.hasRoom request.scope = true

theorem rollback_holds (hs : Coherent s) (hstanding : Standing s) {request : RollbackRequest}
    {candidate target : ModelVersionRecord} (h : s.RollbackPermitted request candidate target) :
    CandidateHolds s request := by
  have hholds := h.holds
  rw [candidateHolds, Bool.and_eq_true, List.any_eq_true] at hholds
  obtain ⟨_, binding, hbinding, hown⟩ := hholds
  obtain ⟨hmem, hlive⟩ := mem_liveBindingsFor.mp hbinding
  have hstands := hstanding.bindings _ binding hmem
  obtain ⟨_, hversion, hmodel, _⟩ := malformed_eq_none_iff.mp hstands.sound
  obtain ⟨record, hrecord, _, hserves⟩ := hstands.served
  obtain ⟨hcandidateModel, hcandidateVersion⟩ :=
    versionKey_inj.mp (hs.versions _ candidate h.candidateStored)
  rw [Bool.and_eq_true, AuthorityBinding.ofVersion_iff, ← hcandidateModel,
    ← hcandidateVersion] at hown
  obtain ⟨⟨hsameModel, hsameVersion⟩, _⟩ := hown
  rw [hsameModel] at hmodel hrecord
  rw [hsameVersion] at hversion hrecord
  refine ⟨hmodel, hversion, mayServe_iff.mpr ⟨record, hrecord, hserves hlive⟩, ?_⟩
  rw [hasRoom_iff]
  exact Or.inl (listed_of_mem hmem)

/-- What a rollback comes to. -/
inductive RollsBack (s : EngineState) (request : RollbackRequest) : Prop
  | refused (hgate : (s.evaluateRollback request).allowed = false)
      (hrefused : (s.rollback request).2.decision.allowed = false)
      (hsame : (s.rollback request).1 = s)
  | denied (hgate : (s.evaluateRollback request).allowed = true)
      (htarget : request.target.valid = false)
      (hrefused : (s.rollback request).2.decision.allowed = false)
  | committed (hgate : (s.evaluateRollback request).allowed = true)
      (hvalid : request.target.valid = true)
      (hallowed : (s.rollback request).2.decision.allowed = true)
      (candidate target : ModelVersionRecord)
      (hpermitted : s.RollbackPermitted request candidate target) (mid : EngineState)
      (hmid : TakenOver s
        (request.grant ⟨s.nextRollbackId⟩ candidate.rollbackGeneration.nextGeneration) mid)
      (hstate : (s.rollback request).1 = mid.finishRollback request candidate
        ⟨s.nextRollbackId⟩ candidate.rollbackGeneration.nextGeneration)

theorem rollsBack (hs : Coherent s) (hstanding : Standing s) (request : RollbackRequest) :
    RollsBack s request := by
  by_cases hgate : (s.evaluateRollback request).allowed = true
  · obtain ⟨candidate, target, hpermitted⟩ := rollback_permitted hgate
    obtain ⟨hmodel, _, _, hroom⟩ := rollback_holds hs hstanding hpermitted
    have hrollback := rollback_eq hgate hpermitted.candidateStored hpermitted.targetStored
    dsimp only at hrollback
    cases hvalid : request.target.valid with
    | true =>
      have hserves : s.mayServe request.model request.target = true :=
        mayServe_iff.mpr ⟨target, hpermitted.targetStored, hpermitted.notRetired⟩
      obtain ⟨hallowed, htaken⟩ := takeOver_spec hs hstanding
        (g := request.grant ⟨s.nextRollbackId⟩ candidate.rollbackGeneration.nextGeneration)
        rfl hserves hmodel hvalid hpermitted.scope hroom
      have hgranted : ((s.mapAuthority (·.supersedeScope request.scope)).grantAuthority
          (request.grant ⟨s.nextRollbackId⟩
            candidate.rollbackGeneration.nextGeneration)).2.allowed = true := hallowed
      rw [hgranted, Bool.not_true, if_neg Bool.false_ne_true] at hrollback
      refine .committed hgate hvalid ?_ candidate target hpermitted _ htaken ?_
      · rw [hrollback]
        rfl
      · rw [hrollback]
        rfl
    | false =>
      have hchain : Chain {} {} s (s.mapAuthority (·.supersedeScope request.scope)) :=
        chain_supersedeScope s request.scope
      have hadmitted : (request.grant ⟨s.nextRollbackId⟩
          candidate.rollbackGeneration.nextGeneration).admitted
            (s.mapAuthority (·.supersedeScope request.scope)) = false := by
        have hversion : (request.grant ⟨s.nextRollbackId⟩
          candidate.rollbackGeneration.nextGeneration).version.valid = false := hvalid
        rw [GrantRequest.admitted, hversion, Bool.and_false, Bool.false_and, Bool.false_and,
          Bool.false_and]
      have hdenied := (grantAuthority_refused (hchain.coherent hs) (hchain.standing hstanding)
        hadmitted).1
      rw [hdenied, Bool.not_false, if_pos rfl] at hrollback
      refine .denied hgate hvalid ?_
      rw [hrollback]
      exact hdenied
  · rw [Bool.not_eq_true] at hgate
    have hsame : s.rollback request = (s, { decision := s.evaluateRollback request }) := by
      unfold EngineState.rollback
      simp only [hgate, Bool.not_false, if_true]
    refine .refused hgate ?_ ?_
    · rw [hsame]
      exact hgate
    · rw [hsame]

/-! ## The scope after a rollback -/

/-- What an accepted rollback must leave: the target alone holds the scope, at its current
generation, the query answers it, the candidate is at most draining there, and the scope
generation has advanced. -/
structure Restores (s : EngineState) (request : RollbackRequest) (s' : EngineState) : Prop where
  target : ∃ record, s'.versionOf request.model request.target = some record ∧
    record.state = .current ∧
    ∃ binding, HoldsExclusively s' request.scope binding ∧ binding.model = request.model ∧
      binding.version = request.target ∧ binding.modelGeneration = record.generation ∧
      (∀ other, HoldsExclusively s' request.scope other → other = binding) ∧
      (s'.queryAuthority request.scope).outcome = .ok ∧
      (s'.queryAuthority request.scope).binding = some binding
  candidate : ∀ binding ∈ s'.authority.liveBindingsFor request.scope,
    binding.ofVersion request.model request.candidate = true → binding.kind = .draining
  generation : ∀ before, s.scopes.find request.scope = some before →
    ¬before.generation.Saturated → ∃ after, s'.scopes.find request.scope = some after ∧
      before.generation < after.generation

/-- The bindings of the scope after the commit: what was there is withdrawn, and the
target's binding stands. -/
theorem bindings_finishRollback {request : RollbackRequest}
    {candidate target : ModelVersionRecord} {mid : EngineState} {scopeGeneration : ScopeGeneration}
    {rollback : RollbackId} {generation : RollbackGeneration}
    (hpermitted : s.RollbackPermitted request candidate target)
    (hmid : mid.authority.bindingsFor request.scope =
      (s.authority.bindingsFor request.scope).map AuthorityBinding.supersede ++
        [s.bumpSequence.grantedBinding (request.grant rollback generation) target
          scopeGeneration]) :
    (mid.finishRollback request candidate rollback generation).authority.bindingsFor
        request.scope =
      (s.authority.bindingsFor request.scope).map AuthorityBinding.supersede ++
        [s.bumpSequence.grantedBinding (request.grant rollback generation) target
          scopeGeneration] := by
  obtain ⟨hauthority, _⟩ := finishRollback_kept mid request candidate rollback generation
  have hwithdrawn : drain candidate.model candidate.version ∘ AuthorityBinding.supersede =
      AuthorityBinding.supersede := by
    funext binding
    rw [Function.comp_apply, drain, if_neg]
    rintro ⟨hlive, _⟩
    cases hlive
  have hgranted : drain candidate.model candidate.version
      (s.bumpSequence.grantedBinding (request.grant rollback generation) target scopeGeneration) =
        s.bumpSequence.grantedBinding (request.grant rollback generation) target
          scopeGeneration := by
    rw [drain, if_neg]
    rintro ⟨_, hown, _⟩
    rw [AuthorityBinding.ofVersion_iff] at hown
    exact hpermitted.distinct hown.2
  rw [hauthority, markDraining, bindingsFor_mapScope, if_pos rfl, hmid, List.map_append,
    List.map_map, hwithdrawn, List.map_singleton, hgranted]

/-- The scope generation advances with the grant and once more with the commit. -/
theorem generation_finishRollback {request : RollbackRequest} {candidate : ModelVersionRecord}
    {mid : EngineState} {rollback : RollbackId} {generation : RollbackGeneration}
    (hmid : mid.scopes = s.scopes.touch request.scope) {before : ScopeRecord}
    (hbefore : s.scopes.find request.scope = some before) (hroom : ¬before.generation.Saturated) :
    ∃ after, (mid.finishRollback request candidate rollback generation).scopes.find
        request.scope = some after ∧ before.generation < after.generation := by
  obtain ⟨_, _, hscopes⟩ := finishRollback_kept mid request candidate rollback generation
  refine ⟨before.touched.touched, ?_, ?_⟩
  · rw [hscopes, hmid, ScopeRegistry.find_touch, ScopeRegistry.find_touch, hbefore]
    simp
  · have hfirst : before.generation < before.touched.generation :=
      Ident.lt_nextGeneration hroom
    exact hfirst.trans_le (Ident.le_nextGeneration before.touched.generation)

/-- An accepted rollback restores its target. -/
theorem restores_of_committed (hs : ReachableState c s) {request : RollbackRequest}
    {candidate target : ModelVersionRecord} (hpermitted : s.RollbackPermitted request candidate target)
    {mid : EngineState}
    (hmid : TakenOver s
      (request.grant ⟨s.nextRollbackId⟩ candidate.rollbackGeneration.nextGeneration) mid)
    (hstate : (s.rollback request).1 = mid.finishRollback request candidate ⟨s.nextRollbackId⟩
      candidate.rollbackGeneration.nextGeneration) :
    Restores s request (s.rollback request).1 := by
  obtain ⟨stored, scopeRecord, hstored, hfound, hhere⟩ := hmid.here
  obtain rfl : target = stored := Option.some.inj (hpermitted.targetStored.symm.trans hstored)
  obtain ⟨htargetModel, htargetVersion⟩ :=
    versionKey_inj.mp (hs.coherent.versions _ target hpermitted.targetStored)
  obtain ⟨hcandidateModel, hcandidateVersion⟩ :=
    versionKey_inj.mp (hs.coherent.versions _ candidate hpermitted.candidateStored)
  have hne : request.target ≠ request.candidate := by
    rw [htargetVersion, hcandidateVersion]
    exact hpermitted.distinct
  have hbindings := bindings_finishRollback hpermitted hhere
  rw [← hstate] at hbindings
  -- Only the granted binding is live.
  have hlive : ∀ binding ∈ (s.rollback request).1.authority.liveBindingsFor request.scope,
      binding = s.bumpSequence.grantedBinding
        (request.grant ⟨s.nextRollbackId⟩ candidate.rollbackGeneration.nextGeneration) target
        scopeRecord.generation := by
    intro binding hbinding
    obtain ⟨hmem, hlive⟩ := mem_liveBindingsFor.mp hbinding
    rw [hbindings, List.mem_append] at hmem
    rcases hmem with hmem | hmem
    · obtain ⟨_, _, rfl⟩ := List.mem_map.mp hmem
      cases hlive
    · exact List.mem_singleton.mp hmem
  have hholds : HoldsExclusively (s.rollback request).1 request.scope
      (s.bumpSequence.grantedBinding
        (request.grant ⟨s.nextRollbackId⟩ candidate.rollbackGeneration.nextGeneration) target
        scopeRecord.generation) := by
    refine ⟨mem_liveBindingsFor.mpr ⟨?_, rfl⟩, rfl⟩
    rw [hbindings]
    exact List.mem_append_right _ List.mem_cons_self
  have hreachable : ReachableState c (s.rollback request).1 :=
    Runs.Reachable.run (step c) hs [.rollback request]
  obtain ⟨_, hversions, hscopes⟩ := finishRollback_kept mid request candidate
    ⟨s.nextRollbackId⟩ candidate.rollbackGeneration.nextGeneration
  have hregistered : ∃ after, (s.rollback request).1.scopes.find request.scope = some after := by
    have hbefore : s.scopes.find request.scope = some scopeRecord := hfound
    rw [hstate, hscopes, hmid.scopes, ScopeRegistry.find_touch, ScopeRegistry.find_touch, hbefore]
    exact ⟨_, rfl⟩
  have hmidTarget : mid.versionOf request.model request.target = some target := by
    rw [versionOf, hmid.versions]
    exact hpermitted.targetStored
  obtain ⟨restored, hrestored, hcurrent, hgeneration⟩ := settleRollback_target
    candidate ⟨s.nextRollbackId⟩ candidate.rollbackGeneration.nextGeneration hmidTarget
    hpermitted.notRetired hne
  obtain ⟨after, hafter⟩ := hregistered
  obtain ⟨answer, hanswer, hreports⟩ := queryAuthority_reports hreachable.standing
    hreachable.singleHolder hafter
  obtain rfl := hanswer.unique hreachable.singleHolder (.held hafter hholds)
  refine ⟨⟨restored, ?_, hcurrent, _, hholds, htargetModel.symm, htargetVersion.symm,
    hgeneration.symm, ?_, hreports.outcome, hreports.binding⟩, ?_, ?_⟩
  · rw [hstate, versionOf, hversions]
    exact hrestored
  · exact fun other hother => hlive other hother.1
  · intro binding hbinding hown
    rw [hlive binding hbinding, AuthorityBinding.ofVersion_iff] at hown
    exact absurd (htargetVersion.trans hown.2) hne
  · intro before hbefore hroom
    rw [hstate]
    exact generation_finishRollback hmid.scopes hbefore hroom

/-- What the rollback of a request must do: follow its gate, change nothing when it is
refused, and restore its target when it is accepted. -/
structure RollbackSound (s : EngineState) (request : RollbackRequest) : Prop where
  accepted_iff : (s.rollback request).2.decision.allowed = true ↔
    (s.evaluateRollback request).allowed = true
  refused : (s.rollback request).2.decision.allowed = false → (s.rollback request).1 = s
  accepted : (s.rollback request).2.decision.allowed = true →
    Restores s request (s.rollback request).1

/-- A rollback does what it must exactly when it names a target, or its gate refuses it. -/
theorem rollback_sound_iff (hs : ReachableState c s) (request : RollbackRequest) :
    RollbackSound s request ↔
      ((s.evaluateRollback request).allowed = true → request.target.valid = true) := by
  cases rollsBack hs.coherent hs.standing request with
  | refused hgate hrefused hsame =>
    constructor
    · intro _ hallowed
      rw [hgate] at hallowed
      cases hallowed
    · intro _
      refine ⟨?_, fun _ => hsame, ?_⟩
      · rw [hgate, hrefused]
      · intro hallowed
        rw [hrefused] at hallowed
        cases hallowed
  | denied hgate htarget hrefused =>
    constructor
    · intro hsound
      rw [hsound.accepted_iff.mpr hgate] at hrefused
      cases hrefused
    · intro hcondition
      rw [hcondition hgate] at htarget
      cases htarget
  | committed hgate hvalid hallowed candidate target hpermitted mid hmid hstate =>
    constructor
    · exact fun _ _ => hvalid
    · intro _
      refine ⟨?_, ?_, fun _ => restores_of_committed hs hpermitted hmid hstate⟩
      · rw [hgate, hallowed]
      · intro hrefused
        rw [hallowed] at hrefused
        cases hrefused

/-! ## What a rollback leaves alone -/

/-- What a rollback must leave alone: the bindings of the other models everywhere, and
every binding outside its scope. -/
structure LeavesOthers (s : EngineState) (request : RollbackRequest) (s' : EngineState) :
    Prop where
  otherModels : ∀ scope,
    (s'.authority.bindingsFor scope).filter (fun b => decide (b.model ≠ request.model)) =
      (s.authority.bindingsFor scope).filter fun b => decide (b.model ≠ request.model)
  elsewhere : ∀ scope, scope ≠ request.scope →
    s'.authority.bindingsFor scope = s.authority.bindingsFor scope

/-- Withdrawing a list keeps those of its bindings that were withdrawn already, and no
others. -/
theorem map_supersede_eq_iff {bindings : List AuthorityBinding} :
    bindings.map AuthorityBinding.supersede = bindings ↔ ∀ b ∈ bindings, b.live = false := by
  have hfixed : ∀ b : AuthorityBinding, b.supersede = b ↔ b.live = false := by
    intro b
    rw [AuthorityBinding.live, Bool.not_eq_false']
    constructor
    · intro hsame
      rw [← hsame]
      rfl
    · intro hsuperseded
      rw [AuthorityBinding.supersede, ← hsuperseded]
  have hpointwise := List.map_inj_left (l := bindings) (f := AuthorityBinding.supersede) (g := id)
  rw [List.map_id] at hpointwise
  rw [hpointwise]
  exact forall₂_congr fun b _ => hfixed b

/-- An accepted rollback leaves the other models alone exactly when its scope holds live
bindings of its own model only. -/
theorem rollback_leaves_others_iff (hs : ReachableState c s) {request : RollbackRequest}
    (hallowed : (s.rollback request).2.decision.allowed = true) :
    LeavesOthers s request (s.rollback request).1 ↔
      ∀ b ∈ s.authority.liveBindingsFor request.scope, b.model = request.model := by
  cases rollsBack hs.coherent hs.standing request with
  | refused _ hrefused =>
    rw [hallowed] at hrefused
    cases hrefused
  | denied _ _ hrefused =>
    rw [hallowed] at hrefused
    cases hrefused
  | committed _ _ _ candidate target hpermitted mid hmid hstate =>
    obtain ⟨stored, scopeRecord, hstored, _, hhere⟩ := hmid.here
    obtain rfl : target = stored := Option.some.inj (hpermitted.targetStored.symm.trans hstored)
    obtain ⟨htargetModel, _⟩ :=
      versionKey_inj.mp (hs.coherent.versions _ target hpermitted.targetStored)
    have hscope := bindings_finishRollback hpermitted hhere
    rw [← hstate] at hscope
    have helsewhere : ∀ scope, scope ≠ request.scope →
        (s.rollback request).1.authority.bindingsFor scope = s.authority.bindingsFor scope := by
      intro scope hne
      obtain ⟨hauthority, _⟩ := finishRollback_kept mid request candidate ⟨s.nextRollbackId⟩
        candidate.rollbackGeneration.nextGeneration
      rw [hstate, hauthority, markDraining, bindingsFor_mapScope, if_neg hne,
        hmid.elsewhere scope hne]
    -- In the scope, the bindings of the other models are all withdrawn.
    have hothers : ((s.rollback request).1.authority.bindingsFor request.scope).filter
          (fun b => decide (b.model ≠ request.model)) =
        ((s.authority.bindingsFor request.scope).filter
          fun b => decide (b.model ≠ request.model)).map AuthorityBinding.supersede := by
      have hgranted : decide ((s.bumpSequence.grantedBinding
          (request.grant ⟨s.nextRollbackId⟩ candidate.rollbackGeneration.nextGeneration) target
            scopeRecord.generation).model ≠ request.model) = false :=
        decide_eq_false (not_not.mpr htargetModel.symm)
      rw [hscope, List.filter_append, List.filter_map,
        List.filter_cons_of_neg (by rw [hgranted]; exact Bool.false_ne_true), List.filter_nil,
        List.append_nil]
      rfl
    constructor
    · intro hleaves b hb
      by_contra hmodel
      obtain ⟨hmem, hlive⟩ := mem_liveBindingsFor.mp hb
      have hsame := hleaves.otherModels request.scope
      rw [hothers, map_supersede_eq_iff] at hsame
      have hdead := hsame b (List.mem_filter.mpr ⟨hmem, decide_eq_true hmodel⟩)
      rw [hlive] at hdead
      cases hdead
    · intro hown
      refine ⟨?_, helsewhere⟩
      intro scope
      by_cases hsame : scope = request.scope
      · rw [hsame, hothers, map_supersede_eq_iff]
        intro b hb
        obtain ⟨hmem, hmodel⟩ := List.mem_filter.mp hb
        by_contra hlive
        rw [Bool.not_eq_false] at hlive
        exact of_decide_eq_true hmodel (hown b (mem_liveBindingsFor.mpr ⟨hmem, hlive⟩))
      · rw [helsewhere scope hsame]

/-! ### Rollbacks in the root scope -/

/-- A registry whose policy asks for no rollback target. -/
def targetFree : EngineConfig := { policy := { requireRollbackTarget := false } }

/-- Two versions of a model are registered, and the second displaces the first in the root
scope. -/
def displaced : List Operation :=
  [.registerModel [109] [] .synthetic,
    .registerVersion
      { model := ⟨1⟩, label := [49]
        artifact := { setId := ⟨1⟩, generation := ⟨1⟩, digest := [97] } },
    .publishCompatibility ⟨1⟩ { key := [101] } .compatible [] .synthetic,
    .registerVersion
      { model := ⟨1⟩, label := [50]
        artifact := { setId := ⟨1⟩, generation := ⟨1⟩, digest := [97] } },
    .publishCompatibility ⟨2⟩ { key := [101] } .compatible [] .synthetic,
    .promote
      { model := ⟨1⟩, candidate := ⟨1⟩, scope := ⟨1⟩, environmentKey := [101]
        requestImmediateCutover := true },
    .promote
      { model := ⟨1⟩, candidate := ⟨2⟩, scope := ⟨1⟩, environmentKey := [101]
        requestImmediateCutover := true, rollbackTarget := ⟨1⟩ }]

/-- The rollback of the second version to the first one. -/
def rollBackDisplaced : RollbackRequest :=
  { model := ⟨1⟩, candidate := ⟨2⟩, target := ⟨1⟩, scope := ⟨1⟩ }

/-- A version of another model is rolled out to the root scope beside them. -/
def sharedScope : List Operation :=
  displaced ++
    [.registerModel [110] [] .synthetic,
      .registerVersion
        { model := ⟨2⟩, label := [49]
          artifact := { setId := ⟨1⟩, generation := ⟨1⟩, digest := [97] } },
      .publishCompatibility ⟨3⟩ { key := [101] } .compatible [] .synthetic,
      .promote { model := ⟨2⟩, candidate := ⟨3⟩, scope := ⟨1⟩, environmentKey := [101] },
      .createRollout
        { model := ⟨2⟩, candidate := ⟨3⟩, rootScope := ⟨1⟩
          cohorts := [{ name := [99], scopes := [⟨1⟩] }]
          stages := [{ name := [115], cohortIndices := [0] }] },
      .beginRollout { rollout := ⟨1⟩ }]

theorem rollback_sound_witness : RollbackSound (runOps {} (init {}) displaced) rollBackDisplaced :=
  (rollback_sound_iff (c := {}) ⟨displaced, rfl⟩ rollBackDisplaced).mpr (by decide +kernel)

/-- A durable state with a version that has no identity. -/
def namelessVersion : DurableState :=
  let s := runOps {} (init {}) servedFromRoot
  let d := s.exportDurableState
  let record := (s.versionOf ⟨1⟩ ⟨1⟩).getD {}
  { d with
    versions := d.versions.insert (versionKey ⟨1⟩ {}) { record with version := {}, label := [48] } }

/-- The rollback of the version that serves the root scope to the one without identity. -/
def rollBackToNameless : RollbackRequest := { model := ⟨1⟩, candidate := ⟨1⟩, scope := ⟨1⟩ }

/-- The gate permits a rollback to a version without identity, and the commit refuses it. -/
theorem rollback_to_nameless_refused :
    ¬RollbackSound (runOps {} (init {}) [.importDurableState namelessVersion ⟨2⟩])
      rollBackToNameless := by
  intro hsound
  have hgate : ((runOps {} (init {}) [.importDurableState namelessVersion ⟨2⟩]).evaluateRollback
      rollBackToNameless).allowed = true := by decide +kernel
  have hrefused : ((runOps {} (init {}) [.importDurableState namelessVersion ⟨2⟩]).rollback
      rollBackToNameless).2.decision.allowed = false := by decide +kernel
  rw [hsound.accepted_iff.mpr hgate] at hrefused
  cases hrefused

theorem rollback_leaves_others_witness :
    LeavesOthers (runOps {} (init {}) displaced) rollBackDisplaced
      ((runOps {} (init {}) displaced).rollback rollBackDisplaced).1 :=
  (rollback_leaves_others_iff (c := {}) ⟨displaced, rfl⟩ (by decide +kernel)).mpr
    (by decide +kernel)

/-- The rollback of one model withdraws the canary of the other one. -/
theorem rollback_withdraws_other_model :
    ((runOps targetFree (init targetFree) sharedScope).rollback
        rollBackDisplaced).2.decision.allowed = true ∧
      ¬LeavesOthers (runOps targetFree (init targetFree) sharedScope) rollBackDisplaced
        ((runOps targetFree (init targetFree) sharedScope).rollback rollBackDisplaced).1 := by
  refine ⟨by decide +kernel, ?_⟩
  intro hleaves
  have hchanged : (((runOps targetFree (init targetFree) sharedScope).rollback
        rollBackDisplaced).1.authority.bindingsFor ⟨1⟩).filter
          (fun b => decide (b.model ≠ rollBackDisplaced.model)) ≠
      ((runOps targetFree (init targetFree) sharedScope).authority.bindingsFor ⟨1⟩).filter
        fun b => decide (b.model ≠ rollBackDisplaced.model) := by
    decide +kernel
  exact hchanged (hleaves.otherModels ⟨1⟩)

end LifecycleFabric
