import LifecycleFabric.Backend
import LifecycleFabric.Properties.Attempts

/-!
# Effects and their completions

A worker reports success when the decision of the backend's result is positive and the effect
was applied. The backend sets the decision of a result only where it refuses a command, and a
decision that nobody set is a rejection: an applied effect is never reported as one.
-/

namespace LifecycleFabric

open EngineState

variable {backend : SyntheticLifecycleBackend} {command : CommandMessage}
  {completion : CompletionMessage} {attempt : Attempt} {s : EngineState}

namespace SyntheticLifecycleBackend

/-- A command has an effect to apply: a healthy replica to warm, or room for a new one; a
healthy replica to activate or to restore; a replica to drain or to evict; room for a canary. -/
def canApply (backend : SyntheticLifecycleBackend) (command : CommandMessage) : Bool :=
  match command.kind with
  | .warm =>
    match backend.warmTarget command with
    | some e => e.2.healthy
    | none =>
      decide (backend.replicas.size < backend.maxReplicas) &&
        (backend.replicas.get? backend.nextReplicaId).all SyntheticReplica.healthy
  | .activate | .promoteReplicaGroup | .rollback | .rehydrate =>
    backend.replicas.values.any (activatable command)
  | .drain => backend.replicas.values.any fun replica => replica.servesIn command
  | .startCanaryReplicas => decide (backend.replicas.size < backend.maxReplicas)
  | .evictRetired => backend.replicas.values.any fun replica => replica.serves command

theorem effectApplied_warmReplica (key : UInt64) :
    (backend.warmReplica key).2.effectApplied =
      (backend.replicas.get? key).any SyntheticReplica.healthy := by
  unfold warmReplica
  cases backend.replicas.get? key with
  | none => rfl
  | some replica => cases hhealthy : replica.healthy <;> simp [hhealthy]

/-- The effect is applied where there is one to apply. -/
theorem effectApplied_execute :
    (backend.execute command).2.effectApplied = backend.canApply command := by
  have hkind : (backend.executeKind command).2.effectApplied = backend.canApply command := by
    unfold executeKind canApply
    cases command.kind with
    | warm =>
      simp only [executeWarm]
      cases htarget : backend.warmTarget command with
      | some e =>
        have hmem : e ∈ backend.replicas.entries := List.mem_of_find?_eq_some htarget
        have hget : backend.replicas.get? e.1 = some e.2 := OrdMap.get?_eq_some_iff.mpr hmem
        dsimp only
        rw [effectApplied_warmReplica, hget]
        rfl
      | none =>
        dsimp only
        by_cases hroom : backend.maxReplicas ≤ backend.replicas.size
        · rw [if_pos hroom]
          simp [replicaBoundReached, hroom]
        · rw [if_neg hroom, effectApplied_warmReplica]
          have hlt : backend.replicas.size < backend.maxReplicas := not_le.mp hroom
          have hget := OrdMap.get?_insertNew backend.replicas backend.nextReplicaId
            backend.nextReplicaId (backend.replicaFor command)
          dsimp only [addReplica]
          rw [hget, if_pos rfl, decide_eq_true hlt, Bool.true_and]
          cases backend.replicas.get? backend.nextReplicaId <;> rfl
    | startCanaryReplicas =>
      simp only [executeStart]
      split_ifs with hroom
      · simp [replicaBoundReached, hroom]
      · simp [not_le.mp hroom]
    | evictRetired =>
      dsimp only [executeEvict]
      exact OrdMap.decide_size_filter _ _
    | _ => rfl
  unfold execute
  dsimp only
  split_ifs <;> exact hkind

/-- No result carries a positive decision. -/
theorem not_allowed_execute : (backend.execute command).2.decision.allowed = false := by
  have hwarm (b : SyntheticLifecycleBackend) (key : UInt64) :
      (b.warmReplica key).2.decision.allowed = false := by
    unfold warmReplica
    split
    · split_ifs <;> rfl
    · rfl
  have hkind : (backend.executeKind command).2.decision.allowed = false := by
    unfold executeKind
    cases command.kind with
    | warm =>
      dsimp only [executeWarm]
      cases backend.warmTarget command with
      | some e => exact hwarm backend e.1
      | none =>
        dsimp only
        split_ifs
        · rfl
        · exact hwarm _ _
    | startCanaryReplicas =>
      dsimp only [executeStart]
      split_ifs <;> rfl
    | _ => rfl
  unfold execute
  dsimp only
  split_ifs <;> exact hkind

end SyntheticLifecycleBackend

/-! ## Reports -/

/-- The completion a worker reports is of the command, and reports no success. -/
theorem completion_of_handleCommand {config : WorkerConfig}
    (h : (config.handleCommand backend command).2 = some completion) :
    completion.attempt = command.attempt ∧ completion.success = false := by
  unfold WorkerConfig.handleCommand at h
  dsimp only at h
  split_ifs at h
  cases hencode : Wire.MessageKind.completion.encode config.limits
      (config.completion backend command (backend.execute command).2) with
  | error status =>
    rw [hencode] at h
    cases h
  | ok bytes =>
    rw [hencode] at h
    obtain rfl := Option.some.inj h
    refine ⟨rfl, ?_⟩
    dsimp only [WorkerConfig.completion]
    rw [SyntheticLifecycleBackend.not_allowed_execute, Bool.false_and]

/-- A confirmed completion that is not refused settles the attempt as it reports. -/
theorem completeAttempt_settles {record : CompletionRecord}
    (hattempt : s.attempts.get? record.attempt.raw = some attempt)
    (hcurrent : s.completionRefusal record attempt = none) (hconfirmed : record.confirmed = true) :
    ((s.completeAttempt record).1.attempts.get? record.attempt.raw).map Attempt.state =
      some (if record.success then .completed else .failed) := by
  unfold EngineState.completeAttempt
  rw [hattempt]
  dsimp only
  rw [hcurrent]
  dsimp only
  rw [hconfirmed, Bool.not_true, if_neg Bool.false_ne_true]
  simp [EngineState.settleAttempt, hattempt]

/-- What is claimed of the completion of a command: an applied effect is reported as a success
and settles the attempt as completed, and an effect that was not applied is not reported as
one. -/
structure ReportsEffect (backend : SyntheticLifecycleBackend) (command : CommandMessage)
    (completion : CompletionMessage) (session : Session) (s : EngineState) : Prop where
  applied : (backend.execute command).2.effectApplied = true →
    completion.success = true ∧
      ((s.completeAttempt (session.completion completion)).1.attempts.get?
        completion.attempt.raw).map Attempt.state = some .completed
  unapplied : (backend.execute command).2.effectApplied = false → completion.success = false

/-- The confirmed completion of a current attempt reports the effect exactly when the command
had none to apply: whatever the backend did, it settles the attempt as failed. -/
theorem effects_reported_iff (config : WorkerConfig) (backend : SyntheticLifecycleBackend)
    (command : CommandMessage) (completion : CompletionMessage) (session : Session)
    (s : EngineState) (attempt : Attempt)
    (hreport : (config.handleCommand backend command).2 = some completion)
    (hconfirmed : completion.confirmed = true)
    (hattempt : s.attempts.get? completion.attempt.raw = some attempt)
    (hcurrent : s.completionRefusal (session.completion completion) attempt = none) :
    (ReportsEffect backend command completion session s ↔ backend.canApply command = false) ∧
      ((s.completeAttempt (session.completion completion)).1.attempts.get?
        completion.attempt.raw).map Attempt.state = some .failed := by
  obtain ⟨_, hsuccess⟩ := completion_of_handleCommand hreport
  have hsettled := completeAttempt_settles hattempt hcurrent hconfirmed
  have hfailed : (session.completion completion).success = false := hsuccess
  rw [hfailed, if_neg Bool.false_ne_true] at hsettled
  refine ⟨?_, hsettled⟩
  rw [← SyntheticLifecycleBackend.effectApplied_execute]
  constructor
  · intro hreports
    by_contra happlied
    rw [Bool.not_eq_false] at happlied
    have hclaimed := (hreports.applied happlied).1
    rw [hsuccess] at hclaimed
    exact Bool.false_ne_true hclaimed
  · intro hunapplied
    refine ⟨fun happlied => ?_, fun _ => hsuccess⟩
    rw [hunapplied] at happlied
    exact absurd happlied Bool.false_ne_true

/-- A backend at its bound cannot warm: nothing is applied, and no success reported. -/
theorem effects_reported_witness :
    ReportsEffect { maxReplicas := 0 } dispatchedAttempt.command
      { attempt := ⟨1⟩, confirmed := true } { worker := ⟨1⟩, boot := ⟨7⟩ }
      (runOps {} (init {}) attemptDispatched) := by
  refine (effects_reported_iff {} { maxReplicas := 0 } dispatchedAttempt.command
    { attempt := ⟨1⟩, confirmed := true } { worker := ⟨1⟩, boot := ⟨7⟩ }
    (runOps {} (init {}) attemptDispatched) dispatchedAttempt ?_ rfl ?_ ?_).1.mpr ?_
  all_goals decide +kernel

/-- The backend warms a replica for a dispatched attempt; the worker reports no success, and
the attempt is settled as failed. -/
theorem applied_effect_fails_attempt :
    (({} : SyntheticLifecycleBackend).execute dispatchedAttempt.command).2.effectApplied = true ∧
      (({} : WorkerConfig).handleCommand {} dispatchedAttempt.command).2.map
        (fun completion => (completion.success, completion.confirmed)) = some (false, true) ∧
      (((runOps {} (init {}) attemptDispatched).completeAttempt
        (({ worker := ⟨1⟩, boot := ⟨7⟩ } : Session).completion
          { attempt := ⟨1⟩, success := false, confirmed := true })).1.attempts.get? 1).map
        Attempt.state = some .failed := by
  decide +kernel

end LifecycleFabric
