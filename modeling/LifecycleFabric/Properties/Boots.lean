import LifecycleFabric.Engine.Leases

/-!
# Fenced boots

A fenced boot of a worker becomes current again exactly when it is registered again:
registration replaces a fenced lease without looking at the boot it was fenced for.
-/

namespace LifecycleFabric

open EngineState Runs

variable {c : EngineConfig} {s : EngineState} {worker : WorkerId}
  {boot : WorkerBootId}

/-! ## The boot that comes back -/

/-- An operation that registers a boot of a worker again. -/
def Operation.Readmits (c : EngineConfig) (s : EngineState) (worker : WorkerId)
    (boot : WorkerBootId) : Operation → Prop
  | .registerWorker registration =>
    registration.id = worker ∧ registration.boot = boot ∧ registration.Admitted c s
  | _ => False

theorem workerBootCurrent_iff :
    s.workerBootCurrent worker boot = true ↔
      ∃ lease, s.workers.get? worker.raw = some lease ∧ lease.fenced = false ∧
        lease.boot = boot := by
  unfold workerBootCurrent workerOf
  cases s.workers.get? worker.raw <;> simp

/-- A boot that is not current becomes current exactly by being registered. -/
theorem current_after_step_iff (hs : Coherent s) (hstale : s.workerBootCurrent worker boot = false)
    (op : Operation) :
    (step c s op).workerBootCurrent worker boot = true ↔ op.Readmits c s worker boot := by
  have hwithdrawn : ∀ t : EngineState, LeasesWithdrawn s.workers t.workers →
      t.workerBootCurrent worker boot ≠ true := by
    intro t ht hcurrent
    obtain ⟨lease, hlease, hactive, hboot⟩ := workerBootCurrent_iff.mp hcurrent
    rcases ht worker.raw lease hlease with hfenced | hbefore
    · rw [hactive] at hfenced
      cases hfenced
    · rw [workerBootCurrent_iff.mpr ⟨lease, hbefore, hactive, hboot⟩] at hstale
      cases hstale
  cases op with
  | registerWorker registration =>
    rcases registerWorker_cases (c := c) s registration with ⟨hrefused, hsame⟩ |
      ⟨hadmitted, hworkers⟩
    · have hstep : step c s (.registerWorker registration) = s := hsame
      rw [hstep, hstale]
      simp only [Bool.false_eq_true, Operation.Readmits, hrefused, and_false]
    · have hstep : (step c s (.registerWorker registration)).workers =
          s.workers.insert registration.id.raw (registration.lease s) := hworkers
      rw [workerBootCurrent_iff, hstep, OrdMap.get?_insert]
      by_cases hid : worker = registration.id
      · subst hid
        simp [Operation.Readmits, hadmitted, WorkerRegistration.lease]
      · have hraw : worker.raw ≠ registration.id.raw := fun h => hid (Ident.ext h)
        rw [if_neg hraw, ← workerBootCurrent_iff, hstale]
        simp [Operation.Readmits, Ne.symm hid]
  | _ =>
    refine iff_of_false (hwithdrawn _ ((step_leases hs _).withdraws ?_)) fun h => h
    exact fun _ h => by cases h

/-- A successful fence leaves its boot not current. -/
theorem fenceWorker_stale {epoch : CoordinatorEpoch} {reason : Text}
    (h : (s.fenceWorker worker boot epoch reason).2.allowed = true) :
    (s.fenceWorker worker boot epoch reason).1.workerBootCurrent worker boot = false := by
  have hfenced : ∀ t : EngineState, (∀ lease, t.workers.get? worker.raw = some lease →
      lease.fenced = true) → t.workerBootCurrent worker boot = false := by
    intro t ht
    refine Bool.eq_false_iff.mpr fun hcurrent => ?_
    obtain ⟨lease, hlease, hactive, _⟩ := workerBootCurrent_iff.mp hcurrent
    rw [ht lease hlease] at hactive
    cases hactive
  unfold fenceWorker at h ⊢
  cases hlease : s.workerOf worker with
  | none => simp [hlease, OutcomeCode.isPositive] at h
  | some lease =>
    simp only [hlease] at h ⊢
    split at h
    · simp [OutcomeCode.isPositive] at h
    · rename_i hboot
      split at h
      · simp [OutcomeCode.isPositive] at h
      · rename_i hepoch
        simp only [hboot, hepoch, if_false]
        split
        · rename_i halready
          refine hfenced s ?_
          intro stored hstored
          obtain rfl := Option.some.inj (hlease.symm.trans hstored)
          exact halready
        · refine hfenced _ ?_
          intro stored hstored
          rw [settleFenced_eq, OrdMap.get?_modify_self, Option.map_eq_some_iff] at hstored
          obtain ⟨_, _, rfl⟩ := hstored
          rfl

/-- Along a run a boot that is not current stays so exactly as long as nothing registers it
again. -/
theorem stays_stale_iff (hs : ReachableState c s)
    (hstale : s.workerBootCurrent worker boot = false) (ops : List Operation) :
    (∀ later, later <+: ops → (runOps c s later).workerBootCurrent worker boot = false) ↔
      Along (step c) (fun t op => ¬op.Readmits c t worker boot) s ops := by
  induction ops generalizing s with
  | nil =>
    refine iff_of_true ?_ trivial
    intro later hlater
    rw [List.prefix_nil.mp hlater]
    exact hstale
  | cons op ops ih =>
    have hstep := current_after_step_iff (c := c) hs.coherent hstale op
    have hreachable : ReachableState c (step c s op) := Runs.Reachable.run (step c) hs [op]
    constructor
    · intro hall
      have hnext : (step c s op).workerBootCurrent worker boot = false :=
        hall [op] (by simp)
      refine ⟨fun hreadmits => ?_, (ih hreachable hnext).mp ?_⟩
      · rw [hstep.mpr hreadmits] at hnext
        cases hnext
      · intro later hlater
        exact hall (op :: later) (List.cons_prefix_cons.mpr ⟨rfl, hlater⟩)
    · rintro ⟨hop, hrest⟩ later hlater
      have hnext : (step c s op).workerBootCurrent worker boot = false :=
        Bool.eq_false_iff.mpr fun hcurrent => hop (hstep.mp hcurrent)
      cases later with
      | nil => exact hstale
      | cons op' later =>
        obtain ⟨rfl, htail⟩ := List.cons_prefix_cons.mp hlater
        exact (ih hreachable hnext).mpr hrest later htail

/-- After a boot of a worker is fenced, it is never current again exactly when no later
operation registers it again. -/
theorem fenced_boot_gone_iff (hs : ReachableState c s) {epoch : CoordinatorEpoch} {reason : Text}
    (hfence : (s.fenceWorker worker boot epoch reason).2.allowed = true) (ops : List Operation) :
    (∀ later, later <+: ops →
        (runOps c (s.fenceWorker worker boot epoch reason).1 later).workerBootCurrent worker boot =
          false) ↔
      Along (step c) (fun t op => ¬op.Readmits c t worker boot)
        (s.fenceWorker worker boot epoch reason).1 ops := by
  have hreachable : ReachableState c (s.fenceWorker worker boot epoch reason).1 :=
    Runs.Reachable.run (step c) hs [.fenceWorker worker boot epoch reason]
  exact stays_stale_iff hreachable (fenceWorker_stale hfence) ops

/-! ### The same boot, registered after its fence -/

/-- The first worker registers with its first boot. -/
def registerFirst : Operation := .registerWorker { id := ⟨1⟩, boot := ⟨1⟩ }

theorem fenced_boot_gone_witness :
    (∀ later, later <+: [Operation.advanceEpoch {}] →
        (runOps {} ((runOps {} (init {}) [registerFirst]).fenceWorker ⟨1⟩ ⟨1⟩ {} []).1
          later).workerBootCurrent ⟨1⟩ ⟨1⟩ = false) ↔
      Along (step {}) (fun t op => ¬op.Readmits {} t ⟨1⟩ ⟨1⟩)
        ((runOps {} (init {}) [registerFirst]).fenceWorker ⟨1⟩ ⟨1⟩ {} []).1
        [.advanceEpoch {}] :=
  fenced_boot_gone_iff ⟨_, rfl⟩ (by decide +kernel) _

/-- The fence succeeds, and one registration later the fenced boot is current. -/
theorem fenced_boot_returns :
    ((runOps {} (init {}) [registerFirst]).fenceWorker ⟨1⟩ ⟨1⟩ {} []).2.allowed = true ∧
      (runOps {} ((runOps {} (init {}) [registerFirst]).fenceWorker ⟨1⟩ ⟨1⟩ {} []).1
        [registerFirst]).workerBootCurrent ⟨1⟩ ⟨1⟩ = true := by
  decide +kernel

end LifecycleFabric
