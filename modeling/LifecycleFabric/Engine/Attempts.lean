import LifecycleFabric.Engine.Leases

/-!
# Who writes attempts

Five operations write the attempt table: a fence leaves the attempts of its boot in flight
with an unknown outcome, a begin adds one, a completion and a reconciliation settle one,
and a recovery replaces the table. Every other operation leaves it alone.
-/

namespace LifecycleFabric

open EngineState Runs

variable {c : EngineConfig} {p : Permit} {s s' : EngineState}

/-! ## Fencing -/

/-- An attempt a boot has not settled yet. -/
def Attempt.InFlight (boot : WorkerBootId) (attempt : Attempt) : Prop :=
  attempt.boot = boot ∧ attempt.state = .dispatched

/-- What the fence of a boot makes of an attempt. -/
inductive Attempt.Swept (boot : WorkerBootId) : Attempt → Attempt → Prop
  | kept (attempt : Attempt) : Swept boot attempt attempt
  | left (attempt : Attempt) (sequence : Sequence) (detail : Text)
      (hflight : attempt.InFlight boot) :
      Swept boot attempt
        { attempt with state := .outcomeUnknown, detail, settledSequence := sequence }

theorem Attempt.Swept.trans {boot : WorkerBootId} {first second third : Attempt}
    (h : Attempt.Swept boot first second) (h' : Attempt.Swept boot second third) :
    Attempt.Swept boot first third := by
  cases h with
  | kept => exact h'
  | left sequence detail hflight =>
    cases h' with
    | kept => exact .left first sequence detail hflight
    | left _ _ hflight' => cases hflight'.2

/-- What is not in flight before the fence is not in flight after it. -/
theorem Attempt.Swept.landed {boot : WorkerBootId} {before after : Attempt}
    (h : Attempt.Swept boot before after) (hbefore : ¬before.InFlight boot) :
    ¬after.InFlight boot := by
  cases h with
  | kept => exact hbefore
  | left _ _ hflight => exact absurd hflight hbefore

/-- A table with the attempts of a boot swept, key by key. -/
def SweptTable (boot : WorkerBootId) (before after : OrdMap UInt64 Attempt) : Prop :=
  ∀ key, Option.Rel (Attempt.Swept boot) (before.get? key) (after.get? key)

theorem sweptTable_refl (boot : WorkerBootId) (attempts : OrdMap UInt64 Attempt) :
    SweptTable boot attempts attempts := by
  intro key
  cases attempts.get? key with
  | none => exact .none
  | some attempt => exact .some (.kept attempt)

theorem SweptTable.trans {boot : WorkerBootId} {first second third : OrdMap UInt64 Attempt}
    (h : SweptTable boot first second) (h' : SweptTable boot second third) :
    SweptTable boot first third := by
  intro key
  have hkey := h key
  have hkey' := h' key
  generalize first.get? key = a, second.get? key = b, third.get? key = d at hkey hkey' ⊢
  cases hkey with
  | none => exact hkey'
  | some hab =>
    cases hkey' with
    | some hbd => exact .some (hab.trans hbd)

/-- The sweep touches attempts in flight only, and leaves none of the keys it visits in
flight. -/
theorem settleFenced_swept (boot : WorkerBootId) (keys : List UInt64) (s : EngineState) :
    SweptTable boot s.attempts (settleFenced boot keys s).attempts ∧
      ∀ key ∈ keys, ∀ attempt, (settleFenced boot keys s).attempts.get? key = some attempt →
        ¬attempt.InFlight boot := by
  induction keys generalizing s with
  | nil => exact ⟨sweptTable_refl boot s.attempts, fun key hkey => by cases hkey⟩
  | cons key keys ih =>
    -- The tail sweeps a table in which the first key is no longer in flight.
    have hrest : ∀ t : EngineState, SweptTable boot s.attempts t.attempts →
        (∀ attempt, t.attempts.get? key = some attempt → ¬attempt.InFlight boot) →
        SweptTable boot s.attempts (settleFenced boot keys t).attempts ∧
          ∀ key' ∈ key :: keys, ∀ attempt,
            (settleFenced boot keys t).attempts.get? key' = some attempt →
              ¬attempt.InFlight boot := by
      intro t hswept hlanded
      obtain ⟨htable, htail⟩ := ih t
      refine ⟨hswept.trans htable, ?_⟩
      intro key' hkey' attempt hattempt
      rcases List.mem_cons.mp hkey' with rfl | hkey'
      · have hkey := htable key'
        rw [hattempt] at hkey
        cases hbefore : t.attempts.get? key' with
        | none =>
          rw [hbefore] at hkey
          cases hkey
        | some before =>
          rw [hbefore] at hkey
          cases hkey with
          | some hsame => exact hsame.landed (hlanded before hbefore)
      · exact htail key' hkey' attempt hattempt
    unfold settleFenced
    split
    · rename_i hnone
      refine hrest s (sweptTable_refl boot s.attempts) ?_
      intro attempt hattempt
      rw [hnone] at hattempt
      cases hattempt
    · rename_i stored hstored
      split
      · rename_i hidle
        refine hrest s (sweptTable_refl boot s.attempts) ?_
        intro attempt hattempt hflight
        obtain rfl := Option.some.inj (hstored.symm.trans hattempt)
        rcases hidle with hboot | hstate
        · exact hboot hflight.1
        · exact hstate hflight.2
      · rename_i hflight
        rw [not_or, not_not, not_not] at hflight
        refine hrest _ ?_ ?_
        · intro key'
          rw [OrdMap.get?_modify]
          change Option.Rel _ (s.attempts.get? key') (Option.map _ (s.attempts.get? key'))
          cases hbefore : s.attempts.get? key' with
          | none => exact .none
          | some before =>
            refine .some ?_
            split_ifs with hkey
            · subst hkey
              obtain rfl := Option.some.inj (hstored.symm.trans hbefore)
              exact .left _ _ _ hflight
            · exact .kept before
        · intro attempt hattempt
          rw [OrdMap.get?_modify_self, Option.map_eq_some_iff] at hattempt
          obtain ⟨_, _, rfl⟩ := hattempt
          rintro ⟨_, hstate⟩
          cases hstate

/-- The sweep of a fence leaves no attempt of the boot in flight. -/
theorem settleFenced_landed (boot : WorkerBootId) {keys : List UInt64}
    (hkeys : keys = s.attempts.keys) (key : UInt64) (attempt : Attempt)
    (hattempt : (settleFenced boot keys s).attempts.get? key = some attempt) :
    ¬attempt.InFlight boot := by
  obtain ⟨hswept, hlanded⟩ := settleFenced_swept boot keys s
  refine hlanded key ?_ attempt hattempt
  have hkey := hswept key
  rw [hattempt] at hkey
  cases hbefore : s.attempts.get? key with
  | none =>
    rw [hbefore] at hkey
    cases hkey
  | some before =>
    rw [hkeys]
    exact OrdMap.mem_keys_iff.mpr ⟨before, hbefore⟩

/-! ## What a step makes of the table -/

/-- The attempt settled in a state. -/
def Attempt.settledAs (sequence : Sequence) (state : AttemptState) (detail : Text)
    (attempt : Attempt) : Attempt :=
  { attempt with
    state
    settledSequence := sequence
    detail := clampDetail detail maxReasonDetail }

/-- The state a completion that is taken settles its attempt in. -/
def CompletionRecord.settles (completion : CompletionRecord) : AttemptState :=
  if !completion.confirmed then .outcomeUnknown
  else if completion.success then .completed else .failed

/-- The state a reconciliation that is taken settles its attempt in. -/
def Attempt.reconciles (attempt : Attempt) (sideEffectObserved : Bool) : AttemptState :=
  if sideEffectObserved then .completed
  else if !attempt.idempotent then .reconcileRequired else .failed

/-- What an operation makes of the attempt table. -/
inductive AttemptsCase (c : EngineConfig) (s : EngineState) :
    Operation → OrdMap UInt64 Attempt → Prop
  | kept {op : Operation} : AttemptsCase c s op s.attempts
  | fenced (worker : WorkerId) (boot : WorkerBootId) (epoch : CoordinatorEpoch) (reason : Text)
      (lease : WorkerLease) (after : OrdMap UInt64 Attempt)
      (hlease : s.workerOf worker = some lease)
      (hswept : SweptTable lease.boot s.attempts after) :
      AttemptsCase c s (.fenceWorker worker boot epoch reason) after
  | begun (request : AttemptRequest) (attempt : Attempt)
      (hid : attempt.id.raw = s.nextAttemptId)
      (hworker : attempt.worker = request.worker ∧ attempt.boot = request.boot)
      (hchecked : (s.checkWorker request.worker request.boot request.epoch).allowed = true)
      (hstate : attempt.state = .dispatched) :
      AttemptsCase c s (.beginAttempt request) (s.attempts.insertNew attempt.id.raw attempt)
  | completed (completion : CompletionRecord) (attempt : Attempt) (sequence : Sequence)
      (detail : Text) (hattempt : s.attempts.get? completion.attempt.raw = some attempt)
      (htaken : s.completionRefusal completion attempt = none) :
      AttemptsCase c s (.completeAttempt completion)
        (s.attempts.modify completion.attempt.raw
          (Attempt.settledAs sequence completion.settles detail))
  | reconciled (id : AttemptId) (sideEffectObserved : Bool) (epoch : CoordinatorEpoch)
      (detail : Text) (attempt : Attempt) (sequence : Sequence)
      (hattempt : s.attempts.get? id.raw = some attempt)
      (hopen : attempt.state.isSettled = false) (hlanded : attempt.state ≠ .dispatched) :
      AttemptsCase c s (.reconcileAttempt id sideEffectObserved epoch detail)
        (s.attempts.modify id.raw
          (Attempt.settledAs sequence (attempt.reconciles sideEffectObserved) detail))
  | recovered (d : DurableState) (newEpoch : CoordinatorEpoch)
      (recovered : DurableState.Recovered) (h : d.Sound c s newEpoch recovered) :
      AttemptsCase c s (.importDurableState d newEpoch)
        (d.unsettledAttempts.mapValues fun _ => Attempt.recovered)

theorem attemptsCase_of_eq {op : Operation} {attempts : OrdMap UInt64 Attempt}
    (h : attempts = s.attempts) : AttemptsCase c s op attempts := by
  rw [h]
  exact .kept

theorem fence_swept (s : EngineState) (id : WorkerId) (lease : WorkerLease) (reason : Text) :
    SweptTable lease.boot s.attempts (s.fence id lease reason).attempts := by
  have hswept := settleFenced_swept lease.boot s.attempts.keys (s.withdraw id lease reason)
  exact hswept.1

theorem fence_landed (s : EngineState) (id : WorkerId) (lease : WorkerLease) (reason : Text)
    (key : UInt64) (attempt : Attempt)
    (hattempt : (s.fence id lease reason).attempts.get? key = some attempt) :
    ¬attempt.InFlight lease.boot := by
  refine settleFenced_landed lease.boot ?_ key attempt hattempt
  rfl

theorem fenceWorker_attempts (s : EngineState) (worker : WorkerId) (boot : WorkerBootId)
    (epoch : CoordinatorEpoch) (reason : Text) :
    AttemptsCase c s (.fenceWorker worker boot epoch reason)
      (s.fenceWorker worker boot epoch reason).1.attempts := by
  rcases fenceWorker_cases s worker boot epoch reason with hsame | ⟨lease, hlease, _, hfence⟩
  · exact attemptsCase_of_eq (congrArg EngineState.attempts hsame)
  · rw [hfence]
    exact .fenced worker boot epoch reason lease _ hlease (fence_swept s worker lease reason)

theorem beginAttempt_attempts (s : EngineState) (request : AttemptRequest) :
    AttemptsCase c s (.beginAttempt request) (s.beginAttempt c request).1.attempts := by
  unfold beginAttempt
  split
  · exact .kept
  · exact .kept
  · rename_i hrefusal _
    have hallowed := firstRefusal_eq_none.mp hrefusal
    simp only [List.append_eq_nil_iff, refuseIf_eq_nil, refusalOf_eq_nil] at hallowed
    exact .begun request _ rfl ⟨rfl, rfl⟩ hallowed.1.2 rfl

theorem completeAttempt_attempts (s : EngineState) (completion : CompletionRecord) :
    AttemptsCase c s (.completeAttempt completion) (s.completeAttempt completion).1.attempts := by
  unfold completeAttempt
  split
  · exact .kept
  · rename_i attempt hattempt
    split
    · exact .kept
    · rename_i htaken
      have hcase : ∀ state detail, completion.settles = state →
          AttemptsCase c s (.completeAttempt completion)
            (s.settleAttempt completion.attempt.raw state detail).attempts := by
        rintro state detail rfl
        exact .completed completion attempt s.bumpSequence.sequence detail hattempt htaken
      split
      · rename_i hconfirmed
        exact hcase _ _ (by simp [CompletionRecord.settles, hconfirmed])
      · rename_i hconfirmed
        exact hcase _ _ (by simp [CompletionRecord.settles, hconfirmed])

theorem reconcileAttempt_attempts (s : EngineState) (id : AttemptId) (sideEffectObserved : Bool)
    (epoch : CoordinatorEpoch) (detail : Text) :
    AttemptsCase c s (.reconcileAttempt id sideEffectObserved epoch detail)
      (s.reconcileAttempt id sideEffectObserved epoch detail).1.attempts := by
  unfold reconcileAttempt
  split
  · exact .kept
  · rename_i attempt hattempt
    have hcase : attempt.state.isSettled = false → attempt.state ≠ .dispatched →
        ∀ state, attempt.reconciles sideEffectObserved = state →
          AttemptsCase c s (.reconcileAttempt id sideEffectObserved epoch detail)
            (s.settleAttempt id.raw state detail).attempts := by
      rintro hopen hlanded state rfl
      exact .reconciled id sideEffectObserved epoch detail attempt s.bumpSequence.sequence hattempt
        hopen hlanded
    have hopen : attempt.state.isOpen = true → attempt.state.isSettled = false := by
      cases attempt.state <;> decide
    split_ifs with hsettled hflight hepoch hobserved hidempotent
    · exact .kept
    · exact .kept
    · exact .kept
    · exact hcase (hopen (by simpa using hsettled)) hflight _ (by simp [Attempt.reconciles, hobserved])
    · exact hcase (hopen (by simpa using hsettled)) hflight _
        (by simp [Attempt.reconciles, hobserved, hidempotent])
    · exact hcase (hopen (by simpa using hsettled)) hflight _
        (by simp [Attempt.reconciles, hobserved, hidempotent])

/-- Every operation but the five leaves the table alone. -/
theorem step_attempts (hs : Coherent s) (op : Operation) :
    AttemptsCase c s op (step c s op).attempts := by
  cases op with
  | fenceWorker worker boot epoch reason => exact fenceWorker_attempts s worker boot epoch reason
  | importDurableState d newEpoch =>
    rcases importDurableState_cases c s d newEpoch with ⟨hsame, _⟩ | ⟨recovered, hsound, heq⟩
    · exact attemptsCase_of_eq (congrArg EngineState.attempts hsame)
    · have hstep : step c s (.importDurableState d newEpoch) =
          s.applyDurableState d newEpoch recovered := congrArg Prod.fst heq
      rw [hstep]
      exact .recovered d newEpoch recovered hsound
  | beginAttempt request => exact beginAttempt_attempts s request
  | completeAttempt completion => exact completeAttempt_attempts s completion
  | reconcileAttempt attempt sideEffectObserved epoch detail =>
    exact reconcileAttempt_attempts s attempt sideEffectObserved epoch detail
  | _ => exact attemptsCase_of_eq ((step_framed hs _).attempts rfl)

end LifecycleFabric
