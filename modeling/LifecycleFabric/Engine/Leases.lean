import LifecycleFabric.Engine.Frames

/-!
# Who writes leases

A registration installs a lease, a fence and a restart withdraw leases, and a recovery
replaces the table. Every other operation leaves it alone.
-/

namespace LifecycleFabric

open EngineState Runs

variable {c : EngineConfig} {p : Permit} {s s' : EngineState}

/-! ## Registration -/

/-- What registering a worker boot requires: a named worker and boot, the current epoch if
one is cited, registered scopes, room for a new worker, and no unfenced lease of another
boot. -/
structure WorkerRegistration.Admitted (c : EngineConfig) (s : EngineState)
    (registration : WorkerRegistration) : Prop where
  named : registration.id.valid = true ∧ registration.boot.valid = true
  epoch : registration.epoch.valid = true → registration.epoch = s.epoch
  scopes : ∀ scope ∈ registration.scopes, (s.scopes.find scope).isSome = true
  room : s.workerOf registration.id = none → s.workers.size < c.bounds.maxWorkers
  vacant : ∀ lease, s.workerOf registration.id = some lease →
    lease.fenced = true ∨ lease.boot = registration.boot

/-- The lease of a registered boot. -/
def WorkerRegistration.lease (s : EngineState) (registration : WorkerRegistration) :
    WorkerLease where
  id := registration.id
  boot := registration.boot
  epoch := s.epoch
  scopes := RolloutPlan.sortUniqueScopes registration.scopes
  registeredSequence := s.bumpSequence.sequence

theorem registerWorker_cases (s : EngineState) (registration : WorkerRegistration) :
    (¬registration.Admitted c s ∧ (s.registerWorker c registration).1 = s) ∨
      registration.Admitted c s ∧ (s.registerWorker c registration).1.workers =
        s.workers.insert registration.id.raw (registration.lease s) := by
  unfold registerWorker
  dsimp only
  split
  · rename_i hnamed
    refine Or.inl ⟨fun h => ?_, rfl⟩
    simp [h.named] at hnamed
  · rename_i hnamed
    split
    · rename_i hepoch
      exact Or.inl ⟨fun h => hepoch.2 (h.epoch hepoch.1), rfl⟩
    · rename_i hepoch
      split
      · rename_i hscopes
        refine Or.inl ⟨fun h => ?_, rfl⟩
        obtain ⟨scope, hscope, hnone⟩ := List.any_eq_true.mp hscopes
        have hsome := h.scopes scope hscope
        simp_all
      · rename_i hscopes
        split
        · rename_i hroom
          refine Or.inl ⟨fun h => ?_, rfl⟩
          exact absurd hroom.2 (not_le.mpr (h.room (by simpa using hroom.1)))
        · rename_i hroom
          split
          · rename_i hvacant
            refine Or.inl ⟨fun h => ?_, rfl⟩
            obtain ⟨lease, hlease, hheld⟩ := (Option.any_eq_true _ _).mp hvacant
            have hfree := h.vacant lease hlease
            simp_all
          · rename_i hvacant
            refine Or.inr ⟨?_, rfl⟩
            refine ⟨by simpa using hnamed, ?_, ?_, ?_, ?_⟩
            · intro hvalid
              by_contra hne
              exact hepoch ⟨hvalid, hne⟩
            · intro scope hscope
              by_contra hnone
              refine hscopes (List.any_eq_true.mpr ⟨scope, hscope, ?_⟩)
              simpa using hnone
            · intro hnone
              by_contra hfull
              exact hroom ⟨by rw [hnone]; rfl, not_lt.mp hfull⟩
            · intro lease hlease
              by_contra hheld
              rw [not_or] at hheld
              exact hvacant ((Option.any_eq_true _ _).mpr ⟨lease, hlease, by simpa using hheld⟩)

/-! ## What a step makes of the leases -/

/-- What an operation makes of the leases. -/
inductive LeasesCase (c : EngineConfig) (s : EngineState) :
    Operation → OrdMap UInt64 WorkerLease → Prop
  | kept {op : Operation} : LeasesCase c s op s.workers
  | registered (registration : WorkerRegistration) (h : registration.Admitted c s) :
      LeasesCase c s (.registerWorker registration)
        (s.workers.insert registration.id.raw (registration.lease s))
  | fenced (worker : WorkerId) (boot : WorkerBootId) (epoch : CoordinatorEpoch) (reason : Text)
      (lease fenced : WorkerLease) (hlease : s.workerOf worker = some lease)
      (hactive : lease.fenced = false) (hfenced : fenced.fenced = true ∧ fenced.boot = lease.boot) :
      LeasesCase c s (.fenceWorker worker boot epoch reason)
        (s.workers.modify worker.raw fun _ => fenced)
  | cleared (cause clamped : Text) :
      LeasesCase c s (.invalidateVolatileState cause)
        (s.workers.mapValues fun _ => fencedLease clamped)
  | recovered (d : DurableState) (newEpoch : CoordinatorEpoch)
      (recovered : DurableState.Recovered) (h : d.Sound c s newEpoch recovered) :
      LeasesCase c s (.importDurableState d newEpoch)
        (d.workerLeases.mapValues fun _ => WorkerLease.recovered d.sequence)

theorem leasesCase_of_eq {op : Operation} {workers : OrdMap UInt64 WorkerLease}
    (h : workers = s.workers) : LeasesCase c s op workers := by
  rw [h]
  exact .kept

/-- The lease after a fence. -/
def WorkerLease.fencedAt (sequence : Sequence) (reason : Text) (lease : WorkerLease) :
    WorkerLease :=
  { lease with
    fenced := true
    fencedSequence := sequence
    detail := clampDetail reason maxReasonDetail }

/-- The state with a lease fenced and the evidence of its boot withdrawn. -/
def EngineState.withdraw (s : EngineState) (id : WorkerId) (lease : WorkerLease) (reason : Text) :
    EngineState :=
  { s.bumpSequence with
    workers := s.workers.modify id.raw fun _ => lease.fencedAt s.bumpSequence.sequence reason
    workerLiveness := s.workerLiveness.insert id.raw false
    evidence := (s.evidence.invalidatePublisherBoot lease.boot).1 }

/-- The state after the fence of a lease: its attempts in flight are left with an unknown
outcome. -/
def EngineState.fence (s : EngineState) (id : WorkerId) (lease : WorkerLease) (reason : Text) :
    EngineState :=
  settleFenced lease.boot s.attempts.keys (s.withdraw id lease reason)

/-- A fence has an effect on an unfenced lease of the boot it names, if it names one, and
does not cite an older epoch. -/
theorem fenceWorker_eq (s : EngineState) (id : WorkerId) (boot : WorkerBootId)
    (epoch : CoordinatorEpoch) (reason : Text) :
    (s.fenceWorker id boot epoch reason).1 =
      match s.workerOf id with
      | none => s
      | some lease =>
        if (boot.valid = true → lease.boot = boot) ∧ (epoch.valid = true → ¬epoch < s.epoch) ∧
            lease.fenced = false then s.fence id lease reason
        else s := by
  unfold fenceWorker
  cases hlease : s.workerOf id with
  | none => rfl
  | some lease =>
    dsimp only
    split_ifs with hboot hnow hepoch hnow hfenced hnow hnow
    · exact absurd (hnow.1 hboot.1) hboot.2
    · rfl
    · exact absurd hepoch.2 (hnow.2.1 hepoch.1)
    · rfl
    · rw [hnow.2.2] at hfenced
      cases hfenced
    · rfl
    · rfl
    · refine absurd ⟨fun hvalid => ?_, fun hvalid hold => hepoch ⟨hvalid, hold⟩,
        Bool.eq_false_iff.mpr hfenced⟩ hnow
      by_contra hother
      exact hboot ⟨hvalid, hother⟩

theorem fenceWorker_cases (s : EngineState) (id : WorkerId) (boot : WorkerBootId)
    (epoch : CoordinatorEpoch) (reason : Text) :
    (s.fenceWorker id boot epoch reason).1 = s ∨
      ∃ lease, s.workerOf id = some lease ∧ lease.fenced = false ∧
        (s.fenceWorker id boot epoch reason).1 = s.fence id lease reason := by
  rw [fenceWorker_eq]
  cases hlease : s.workerOf id with
  | none => exact Or.inl rfl
  | some lease =>
    dsimp only
    split_ifs with hnow
    · exact Or.inr ⟨lease, rfl, hnow.2.2, rfl⟩
    · exact Or.inl rfl

theorem fence_workers (s : EngineState) (id : WorkerId) (lease : WorkerLease) (reason : Text) :
    (s.fence id lease reason).workers =
      s.workers.modify id.raw fun _ => lease.fencedAt s.bumpSequence.sequence reason :=
  congrArg EngineState.workers (settleFenced_eq _ _ _)

theorem fenceWorker_leases (s : EngineState) (id : WorkerId) (boot : WorkerBootId)
    (epoch : CoordinatorEpoch) (reason : Text) :
    LeasesCase c s (.fenceWorker id boot epoch reason)
      (s.fenceWorker id boot epoch reason).1.workers := by
  rcases fenceWorker_cases s id boot epoch reason with hsame | ⟨lease, hlease, hactive, hfence⟩
  · exact leasesCase_of_eq (congrArg EngineState.workers hsame)
  · rw [hfence, fence_workers]
    exact .fenced id boot epoch reason lease _ hlease hactive ⟨rfl, rfl⟩

theorem invalidateVolatileState_leases (s : EngineState) (cause : Text) :
    LeasesCase c s (.invalidateVolatileState cause)
      (s.invalidateVolatileState cause).workers := by
  have hworkers : (s.invalidateVolatileState cause).workers =
      s.workers.mapValues fun _ => fencedLease (clampDetail cause maxReasonDetail) :=
    congrArg EngineState.workers (stampEntered_eq _ _)
  rw [hworkers]
  exact .cleared cause _

/-- A step registers a lease, fences one or all of them, replaces the table, or leaves it
alone. -/
theorem step_leases (hs : Coherent s) (op : Operation) :
    LeasesCase c s op (step c s op).workers := by
  cases op with
  | registerWorker registration =>
    rcases registerWorker_cases (c := c) s registration with ⟨_, hsame⟩ | ⟨hadmitted, hworkers⟩
    · exact leasesCase_of_eq (congrArg EngineState.workers hsame)
    · have hstep : (step c s (.registerWorker registration)).workers =
          s.workers.insert registration.id.raw (registration.lease s) := hworkers
      rw [hstep]
      exact .registered registration hadmitted
  | fenceWorker id boot epoch reason => exact fenceWorker_leases s id boot epoch reason
  | invalidateVolatileState cause => exact invalidateVolatileState_leases s cause
  | importDurableState d newEpoch =>
    rcases importDurableState_cases c s d newEpoch with ⟨hsame, _⟩ | ⟨recovered, hsound, heq⟩
    · exact leasesCase_of_eq (congrArg EngineState.workers hsame)
    · have hstep : step c s (.importDurableState d newEpoch) =
          s.applyDurableState d newEpoch recovered := congrArg Prod.fst heq
      rw [hstep]
      exact .recovered d newEpoch recovered hsound
  | _ => exact leasesCase_of_eq ((step_framed hs _).leases rfl)

/-- Every lease of the later table is fenced, or is the earlier lease of its worker. -/
def LeasesWithdrawn (before after : OrdMap UInt64 WorkerLease) : Prop :=
  ∀ key lease, after.get? key = some lease →
    lease.fenced = true ∨ before.get? key = some lease

/-- Every operation but a registration only withdraws leases. -/
theorem LeasesCase.withdraws {op : Operation} {workers : OrdMap UInt64 WorkerLease}
    (h : LeasesCase c s op workers) (hop : ∀ registration, op ≠ .registerWorker registration) :
    LeasesWithdrawn s.workers workers := by
  intro key lease hlease
  cases h with
  | kept => exact Or.inr hlease
  | registered registration => exact absurd rfl (hop registration)
  | fenced worker boot epoch reason before fenced _ _ hfenced =>
    rw [OrdMap.get?_modify, Option.map_eq_some_iff] at hlease
    obtain ⟨before, hbefore, rfl⟩ := hlease
    split_ifs
    · exact Or.inl hfenced.1
    · exact Or.inr hbefore
  | cleared =>
    rw [OrdMap.get?_mapValues, Option.map_eq_some_iff] at hlease
    obtain ⟨before, _, rfl⟩ := hlease
    exact Or.inl rfl
  | recovered =>
    rw [OrdMap.get?_mapValues, Option.map_eq_some_iff] at hlease
    obtain ⟨before, _, rfl⟩ := hlease
    exact Or.inl rfl

/-- Leases are replaced and withdrawn, never dropped, but by a recovery. -/
theorem LeasesCase.keeps {op : Operation} {workers : OrdMap UInt64 WorkerLease}
    (h : LeasesCase c s op workers) (hop : op.isImport = false) {key : UInt64}
    {lease : WorkerLease} (hlease : s.workers.get? key = some lease) :
    ∃ later, workers.get? key = some later := by
  cases h with
  | kept => exact ⟨lease, hlease⟩
  | registered registration =>
    rw [OrdMap.get?_insert]
    split_ifs
    · exact ⟨_, rfl⟩
    · exact ⟨lease, hlease⟩
  | fenced worker =>
    rw [OrdMap.get?_modify, hlease]
    exact ⟨_, rfl⟩
  | cleared =>
    rw [OrdMap.get?_mapValues, hlease]
    exact ⟨_, rfl⟩
  | recovered => cases hop

end LifecycleFabric
