import LifecycleFabric.Engine.Attempts

/-!
# Attempts settle once

Which completions settle an attempt, what becomes of a settled attempt along a run, and
which attempts are still dispatched when the lease of their worker is gone.
-/

namespace LifecycleFabric

open EngineState Runs

variable {c : EngineConfig} {s : EngineState}

/-! ## Completions -/

/-- An attempt waits for a completion that cites an epoch: it is not settled, the epoch and
its performer are current, and its subject is still what it was dispatched for. -/
structure Attempt.Awaits (s : EngineState) (epoch : CoordinatorEpoch) (attempt : Attempt) :
    Prop where
  unsettled : attempt.state.isSettled = false
  epoch : epoch.valid = true → epoch = s.epoch
  performer : attempt.worker.valid = true →
    attempt.boot.valid = true ∧ s.workerBootCurrent attempt.worker attempt.boot = true
  subject : ∃ record, s.versionOf attempt.model attempt.version = some record ∧
    record.retired = false ∧ record.generation = attempt.modelGeneration
  rollout : attempt.rollout.valid = true → ∃ plan, s.rolloutOf attempt.rollout = some plan ∧
    plan.generation = attempt.rolloutGeneration

theorem checkWorker_allowed_iff {worker : WorkerId} {boot : WorkerBootId} :
    (s.checkWorker worker boot {}).allowed = true ↔
      (worker.valid = true → boot.valid = true ∧ s.workerBootCurrent worker boot = true) := by
  unfold checkWorker workerBootCurrent
  by_cases hworker : worker.valid = true
  · cases hlease : s.workerOf worker with
    | none => simp [hworker, OutcomeCode.isPositive]
    | some lease =>
      by_cases hfenced : lease.fenced = true
      · simp [hworker, hfenced, OutcomeCode.isPositive]
      · by_cases hboot : boot.valid = true ∧ lease.boot = boot
        · have hepoch : ({} : CoordinatorEpoch).valid = false := rfl
          simp [hworker, hfenced, hboot, hepoch]
        · have hother : boot.valid = false ∨ ¬lease.boot = boot := by
            rw [← Bool.not_eq_true]
            exact not_and_or.mp hboot
          simp [hworker, hfenced, hboot, hother, OutcomeCode.isPositive]
  · simp [hworker]

theorem performerRefusal_eq_nil {worker : Decision} :
    performerRefusal worker = [] ↔ worker.allowed = true := by
  unfold performerRefusal
  split_ifs with h
  · simp [h]
  · simpa using h

/-- A completion is taken when the attempt awaits it and the identity it carries, if any, is
that of the assignee. -/
theorem completionRefusal_eq_none {completion : CompletionRecord} {attempt : Attempt} :
    s.completionRefusal completion attempt = none ↔
      attempt.Awaits s completion.epoch ∧
        (completion.worker.valid = true →
          completion.worker = attempt.worker ∧ completion.boot = attempt.boot) := by
  unfold completionRefusal
  simp only [firstRefusal_eq_none, List.append_eq_nil_iff, refuseIf_eq_nil,
    performerRefusal_eq_nil, checkWorker_allowed_iff]
  constructor
  · rintro ⟨⟨⟨⟨⟨⟨⟨hdone, habandoned⟩, hepoch⟩, hassignee⟩, hperformer⟩, hlive⟩, hsame⟩, hrollout⟩
    refine ⟨⟨?_, ?_, hperformer, ?_, ?_⟩, ?_⟩
    · cases hstate : attempt.state <;> simp_all [AttemptState.isSettled]
    · intro hvalid
      by_contra hne
      exact hepoch ⟨hvalid, hne⟩
    · cases hrecord : s.versionOf attempt.model attempt.version with
      | none => simp [hrecord] at hlive
      | some record =>
        refine ⟨record, rfl, ?_, ?_⟩
        · simpa [hrecord] using hlive
        · simpa [hrecord] using hsame
    · intro hvalid
      cases hplan : s.rolloutOf attempt.rollout with
      | none => simp [hplan, hvalid] at hrollout
      | some plan =>
        refine ⟨plan, rfl, ?_⟩
        simpa [hplan, hvalid] using hrollout
    · intro hvalid
      by_contra hother
      exact hassignee ⟨hvalid, not_and_or.mp hother⟩
  · rintro ⟨⟨hopen, hepoch, hperformer, ⟨record, hrecord, hlive, hsame⟩, hrollout⟩, hassignee⟩
    refine ⟨⟨⟨⟨⟨⟨⟨?_, ?_⟩, ?_⟩, ?_⟩, hperformer⟩, ?_⟩, ?_⟩, ?_⟩
    · rintro (hdone | hdone)
      · simp [hdone, AttemptState.isSettled] at hopen
      · simp [hdone, AttemptState.isSettled] at hopen
    · intro habandoned
      simp [habandoned, AttemptState.isSettled] at hopen
    · rintro ⟨hvalid, hne⟩
      exact hne (hepoch hvalid)
    · rintro ⟨hvalid, hother⟩
      obtain ⟨hworker, hboot⟩ := hassignee hvalid
      rcases hother with hother | hother
      · exact hother hworker
      · exact hother hboot
    · simp [hrecord, hlive]
    · simp [hrecord, hsame]
    · rintro ⟨hvalid, hall⟩
      obtain ⟨plan, hplan, hgeneration⟩ := hrollout hvalid
      simp [hplan, hgeneration] at hall

theorem completeAttempt_refused {completion : CompletionRecord} {attempt : Attempt}
    (hattempt : s.attempts.get? completion.attempt.raw = some attempt)
    (hrefused : s.completionRefusal completion attempt ≠ none) :
    (s.completeAttempt completion).1 = s := by
  obtain ⟨refusal, hrefusal⟩ := Option.ne_none_iff_exists'.mp hrefused
  unfold completeAttempt
  simp only [hattempt, hrefusal]

theorem completeAttempt_taken {completion : CompletionRecord} {attempt : Attempt}
    (hattempt : s.attempts.get? completion.attempt.raw = some attempt)
    (htaken : s.completionRefusal completion attempt = none) :
    ∃ detail, (s.completeAttempt completion).1.attempts =
      s.attempts.modify completion.attempt.raw
        (Attempt.settledAs s.bumpSequence.sequence completion.settles detail) := by
  unfold completeAttempt CompletionRecord.settles
  simp only [hattempt, htaken]
  by_cases hconfirmed : completion.confirmed = true
  · simp only [hconfirmed, Bool.not_true, Bool.false_eq_true, if_false]
    exact ⟨_, rfl⟩
  · simp only [hconfirmed, Bool.not_false, if_true]
    exact ⟨_, rfl⟩

/-- An attempt of the table keeps its state under a completion. -/
def CompletionRecord.Keeps (s : EngineState) (completion : CompletionRecord) (key : UInt64)
    (attempt : Attempt) : Prop :=
  ((s.completeAttempt completion).1.attempts.get? key).map Attempt.state = some attempt.state

/-- A completion keeps the state of an attempt unless it names it, the attempt awaits it,
the identity it carries is not another's, and it says something new. -/
theorem completeAttempt_keeps_iff {completion : CompletionRecord} {key : UInt64}
    {attempt : Attempt} (hattempt : s.attempts.get? key = some attempt) :
    completion.Keeps s key attempt ↔
      key = completion.attempt.raw → attempt.Awaits s completion.epoch →
        (completion.worker.valid = true →
          completion.worker = attempt.worker ∧ completion.boot = attempt.boot) →
        completion.settles = attempt.state := by
  unfold CompletionRecord.Keeps
  have hsame : ((s.completeAttempt completion).1 = s) →
      ((s.completeAttempt completion).1.attempts.get? key).map Attempt.state =
        some attempt.state := by
    intro h
    rw [h, hattempt]
    rfl
  by_cases hkey : key = completion.attempt.raw
  · subst hkey
    cases hrefusal : s.completionRefusal completion attempt with
    | some refusal =>
      have hrefused : s.completionRefusal completion attempt ≠ none := by simp [hrefusal]
      refine iff_of_true (hsame (completeAttempt_refused hattempt hrefused)) ?_
      intro _ hawaits hassignee
      exact absurd (completionRefusal_eq_none.mpr ⟨hawaits, hassignee⟩) hrefused
    | none =>
      obtain ⟨hawaits, hassignee⟩ := completionRefusal_eq_none.mp hrefusal
      obtain ⟨detail, hafter⟩ := completeAttempt_taken hattempt hrefusal
      rw [hafter, OrdMap.get?_modify_self, hattempt]
      constructor
      · intro h _ _ _
        exact Option.some.inj h
      · intro h
        exact congrArg some (h rfl hawaits hassignee)
  · refine iff_of_true ?_ fun h => absurd h hkey
    cases hnamed : s.attempts.get? completion.attempt.raw with
    | none =>
      refine hsame ?_
      unfold completeAttempt
      simp only [hnamed]
    | some named =>
      cases hrefusal : s.completionRefusal completion named with
      | some refusal => exact hsame (completeAttempt_refused hnamed (by simp [hrefusal]))
      | none =>
        obtain ⟨detail, hafter⟩ := completeAttempt_taken hnamed hrefusal
        rw [hafter, OrdMap.get?_modify_of_ne _ _ hkey, hattempt]
        rfl

/-- A completion comes from the assignee of an attempt, at its current boot. -/
def CompletionRecord.FromAssignee (s : EngineState) (completion : CompletionRecord)
    (attempt : Attempt) : Prop :=
  completion.worker = attempt.worker ∧ completion.boot = attempt.boot ∧
    s.workerBootCurrent attempt.worker attempt.boot = true

/-- A completion changes the state of an attempt given to a worker only if it comes from
that worker, exactly when it names a worker, names another attempt, is not awaited, or
leaves an unknown outcome unknown. -/
theorem only_assignee_completes_iff {completion : CompletionRecord} {key : UInt64}
    {attempt : Attempt} (hattempt : s.attempts.get? key = some attempt)
    (hassigned : attempt.worker.valid = true) :
    (¬completion.Keeps s key attempt → completion.FromAssignee s attempt) ↔
      completion.worker.valid = true ∨ key ≠ completion.attempt.raw ∨
        ¬attempt.Awaits s completion.epoch ∨
        completion.confirmed = false ∧ attempt.state = .outcomeUnknown := by
  rw [completeAttempt_keeps_iff hattempt]
  constructor
  · intro h
    by_contra hnot
    push Not at hnot
    obtain ⟨hanonymous, hkey, hawaits, hnews⟩ := hnot
    have hsettles : completion.settles ≠ attempt.state := by
      intro hsame
      cases hconfirmed : completion.confirmed with
      | false =>
        have hunknown : completion.settles = .outcomeUnknown := by
          simp [CompletionRecord.settles, hconfirmed]
        exact hnews hconfirmed (hsame.symm.trans hunknown)
      | true =>
        have hopen := hawaits.unsettled
        rw [← hsame] at hopen
        cases hsuccess : completion.success <;>
          simp [CompletionRecord.settles, hconfirmed, hsuccess, AttemptState.isSettled] at hopen
    have hfrom := h fun hkeeps => hsettles (hkeeps hkey hawaits fun hvalid =>
      absurd hvalid (by simpa using hanonymous))
    rw [hfrom.1] at hanonymous
    exact hanonymous hassigned
  · intro h hchanges
    push Not at hchanges
    obtain ⟨hkey, hawaits, hassignee, hsettles⟩ := hchanges
    rcases h with hvalid | hother | hidle | ⟨hunconfirmed, hunknown⟩
    · obtain ⟨hworker, hboot⟩ := hassignee hvalid
      exact ⟨hworker, hboot, (hawaits.performer hassigned).2⟩
    · exact absurd hkey hother
    · exact absurd hawaits hidle
    · refine absurd ?_ hsettles
      rw [hunknown]
      simp [CompletionRecord.settles, hunconfirmed]

/-! ### A completion that names no worker -/

/-- An attempt is dispatched to a boot of the first worker. -/
def attemptDispatched : List Operation :=
  [.registerModel [109] [] .synthetic,
    .registerVersion
      { model := ⟨1⟩, label := [49]
        artifact := { setId := ⟨1⟩, generation := ⟨1⟩, digest := [97] } },
    .registerWorker { id := ⟨1⟩, boot := ⟨7⟩ },
    .beginAttempt { worker := ⟨1⟩, boot := ⟨7⟩, model := ⟨1⟩, version := ⟨1⟩ }]

/-- The attempt that is dispatched. -/
def dispatchedAttempt : Attempt :=
  ((runOps {} (init {}) attemptDispatched).attempts.get? 1).getD {}

theorem only_assignee_completes_witness :
    (¬({ attempt := ⟨1⟩, confirmed := true } : CompletionRecord).Keeps
          (runOps {} (init {}) attemptDispatched) 1 dispatchedAttempt →
        ({ attempt := ⟨1⟩, confirmed := true } : CompletionRecord).FromAssignee
          (runOps {} (init {}) attemptDispatched) dispatchedAttempt) ↔
      (false = true ∨ (1 : UInt64) ≠ 1 ∨
        ¬dispatchedAttempt.Awaits (runOps {} (init {}) attemptDispatched) {} ∨
        true = false ∧ dispatchedAttempt.state = .outcomeUnknown) :=
  only_assignee_completes_iff (by decide +kernel) (by decide +kernel)

/-- The attempt is dispatched to a worker at its current boot, and a completion that names
neither completes it. -/
theorem anonymous_completion_settles :
    dispatchedAttempt.worker = ⟨1⟩ ∧ dispatchedAttempt.boot = ⟨7⟩ ∧
      dispatchedAttempt.state = .dispatched ∧
      ¬({ attempt := ⟨1⟩, success := true, confirmed := true } : CompletionRecord).Keeps
        (runOps {} (init {}) attemptDispatched) 1 dispatchedAttempt ∧
      ¬({ attempt := ⟨1⟩, success := true, confirmed := true } : CompletionRecord).FromAssignee
        (runOps {} (init {}) attemptDispatched) dispatchedAttempt := by
  unfold CompletionRecord.Keeps CompletionRecord.FromAssignee
  decide +kernel

/-! ## Settled attempts -/

/-- An operation that replaces the state by a durable one. -/
def Operation.Recovers (c : EngineConfig) (s : EngineState) (op : Operation) : Prop :=
  op.isImport = true ∧ (s.perform c op).2.allowed = true

/-- What operations other than a recovery make of an attempt in the table: nothing if it is
settled, and none of them dispatches it again. -/
structure Attempt.Next (attempt later : Attempt) : Prop where
  settled : attempt.state.isSettled = true → later = attempt
  landed : attempt.state ≠ .dispatched → later.state ≠ .dispatched

theorem Attempt.Next.refl (attempt : Attempt) : attempt.Next attempt where
  settled _ := rfl
  landed h := h

theorem Attempt.Next.trans {first second third : Attempt} (h : first.Next second)
    (h' : second.Next third) : first.Next third where
  settled hsettled := by
    have hsame := h.settled hsettled
    rw [← hsame] at hsettled
    exact (h'.settled hsettled).trans hsame
  landed hlanded := h'.landed (h.landed hlanded)

/-- An attempt that is settled in a state other than dispatched. -/
theorem Attempt.next_settledAs {attempt : Attempt} (hopen : attempt.state.isSettled = false)
    {state : AttemptState} (hstate : state ≠ .dispatched) (sequence : Sequence) (detail : Text) :
    attempt.Next (attempt.settledAs sequence state detail) where
  settled hsettled := by
    rw [hopen] at hsettled
    cases hsettled
  landed _ := hstate

theorem CompletionRecord.settles_ne_dispatched (completion : CompletionRecord) :
    completion.settles ≠ .dispatched := by
  unfold CompletionRecord.settles
  split_ifs <;> decide

theorem Attempt.reconciles_ne_dispatched (attempt : Attempt) (sideEffectObserved : Bool) :
    attempt.reconciles sideEffectObserved ≠ .dispatched := by
  unfold Attempt.reconciles
  split_ifs <;> decide

theorem Attempt.recovered_ne_dispatched (attempt : Attempt) :
    attempt.recovered.state ≠ .dispatched := by
  unfold Attempt.recovered
  split_ifs with h
  · exact AttemptState.noConfusion
  · exact h

/-- Every attempt of the table is still in the later table, as one of its next forms. -/
def NextTable (before after : OrdMap UInt64 Attempt) : Prop :=
  ∀ key attempt, before.get? key = some attempt →
    ∃ later, after.get? key = some later ∧ attempt.Next later

theorem nextTable_refl (attempts : OrdMap UInt64 Attempt) : NextTable attempts attempts := by
  intro key attempt hattempt
  exact ⟨attempt, hattempt, .refl attempt⟩

theorem NextTable.trans {first second third : OrdMap UInt64 Attempt} (h : NextTable first second)
    (h' : NextTable second third) : NextTable first third := by
  intro key attempt hattempt
  obtain ⟨later, hlater, hnext⟩ := h key attempt hattempt
  obtain ⟨latest, hlatest, hnext'⟩ := h' key later hlater
  exact ⟨latest, hlatest, hnext.trans hnext'⟩

theorem nextTable_modify {attempts : OrdMap UInt64 Attempt} {key : UInt64} {attempt : Attempt}
    (hattempt : attempts.get? key = some attempt) {f : Attempt → Attempt}
    (hnext : attempt.Next (f attempt)) : NextTable attempts (attempts.modify key f) := by
  intro key' before hbefore
  by_cases hkey : key' = key
  · subst hkey
    obtain rfl := Option.some.inj (hattempt.symm.trans hbefore)
    exact ⟨f attempt, by rw [OrdMap.get?_modify_self, hattempt]; rfl, hnext⟩
  · exact ⟨before, by rw [OrdMap.get?_modify_of_ne _ _ hkey]; exact hbefore, .refl before⟩

/-- One operation that is no import. -/
theorem AttemptsCase.next {op : Operation} {after : OrdMap UInt64 Attempt}
    (h : AttemptsCase c s op after) (hop : op.isImport = false) : NextTable s.attempts after := by
  cases h with
  | kept => exact nextTable_refl s.attempts
  | fenced worker boot epoch reason lease after hlease hswept =>
    intro key attempt hattempt
    have hkey := hswept key
    rw [hattempt] at hkey
    cases hafter : after.get? key with
    | none =>
      rw [hafter] at hkey
      cases hkey
    | some later =>
      rw [hafter] at hkey
      refine ⟨later, rfl, ?_⟩
      cases hkey with
      | some hsame =>
        cases hsame with
        | kept => exact .refl attempt
        | left sequence detail hflight =>
          refine ⟨fun hsettled => ?_, fun _ => AttemptState.noConfusion⟩
          rw [hflight.2] at hsettled
          cases hsettled
  | begun request attempt =>
    intro key before hbefore
    refine ⟨before, ?_, .refl before⟩
    rw [OrdMap.get?_insertNew]
    split_ifs with hkey
    · rw [← hkey, hbefore, Option.getD_some]
    · exact hbefore
  | completed completion attempt sequence detail hattempt htaken =>
    refine nextTable_modify hattempt ?_
    exact Attempt.next_settledAs (completionRefusal_eq_none.mp htaken).1.unsettled
      completion.settles_ne_dispatched sequence detail
  | reconciled id sideEffectObserved epoch detail attempt sequence hattempt hopen =>
    refine nextTable_modify hattempt ?_
    exact Attempt.next_settledAs hopen (attempt.reconciles_ne_dispatched sideEffectObserved)
      sequence detail
  | recovered => cases hop

/-- An import that is refused changes nothing. -/
theorem step_of_refused_import {op : Operation} (himport : op.isImport = true)
    (hop : ¬op.Recovers c s) : step c s op = s := by
  cases op with
  | importDurableState d newEpoch =>
    rcases importDurableState_cases c s d newEpoch with ⟨hsame, _⟩ | ⟨recovered, _, heq⟩
    · exact hsame
    · exact absurd ⟨rfl, congrArg (fun r => r.2.allowed) heq⟩ hop
  | _ => cases himport

/-- One operation that replaces nothing. -/
theorem step_next (hs : Coherent s) {op : Operation} (hop : ¬op.Recovers c s) :
    NextTable s.attempts (step c s op).attempts := by
  cases himport : op.isImport with
  | false => exact (step_attempts hs op).next himport
  | true =>
    rw [step_of_refused_import himport hop]
    exact nextTable_refl s.attempts

/-- A run of operations that replace nothing. -/
theorem run_next (hs : ReachableState c s) {ops : List Operation}
    (hops : Along (step c) (fun t op => ¬op.Recovers c t) s ops) :
    NextTable s.attempts (runOps c s ops).attempts := by
  have hrun := Runs.run_preserves (step c)
    (P := fun t => ReachableState c t ∧ NextTable s.attempts t.attempts)
    (fun t op ht hop => ⟨Runs.Reachable.run (step c) ht.1 [op],
      ht.2.trans (step_next ht.1.coherent hop)⟩) hops ⟨hs, nextTable_refl s.attempts⟩
  exact hrun.2

/-- A recovery leaves exactly the unsettled attempts of the durable state, none of them
dispatched. -/
theorem recovered_attempts {op : Operation} (hop : op.Recovers c s) :
    ∃ d newEpoch, op = .importDurableState d newEpoch ∧
      (step c s op).attempts = d.unsettledAttempts.mapValues fun _ => Attempt.recovered := by
  obtain ⟨himport, hallowed⟩ := hop
  cases op with
  | importDurableState d newEpoch =>
    rcases importDurableState_cases c s d newEpoch with ⟨_, hrefused⟩ | ⟨recovered, _, heq⟩
    · have hrefused' : (s.perform c (.importDurableState d newEpoch)).2.allowed = false := hrefused
      rw [hallowed] at hrefused'
      cases hrefused'
    · exact ⟨d, newEpoch, rfl, congrArg (fun r => r.1.attempts) heq⟩
  | _ => cases himport

/-- An attempt settled as completed or failed. -/
def Attempt.Concluded (attempt : Attempt) : Prop :=
  attempt.state = .completed ∨ attempt.state = .failed

/-- Settling one attempt in a state that concludes nothing concludes none. -/
theorem concluded_of_modify {attempts : OrdMap UInt64 Attempt} {key key' : UInt64}
    {later : Attempt} {sequence : Sequence} {state : AttemptState} {detail : Text}
    (hstate : state ≠ .completed ∧ state ≠ .failed)
    (hlater : (attempts.modify key (Attempt.settledAs sequence state detail)).get? key' = some later)
    (hconcluded : later.Concluded) : attempts.get? key' = some later := by
  by_cases hkey : key' = key
  · subst hkey
    rw [OrdMap.get?_modify_self, Option.map_eq_some_iff] at hlater
    obtain ⟨before, _, rfl⟩ := hlater
    rcases hconcluded with hcompleted | hfailed
    · exact absurd hcompleted hstate.1
    · exact absurd hfailed hstate.2
  · rwa [OrdMap.get?_modify_of_ne _ _ hkey] at hlater

/-- An unconfirmed completion concludes no attempt. -/
theorem unconfirmed_concludes_none {completion : CompletionRecord}
    (hunconfirmed : completion.confirmed = false) {key : UInt64} {later : Attempt}
    (hlater : (s.completeAttempt completion).1.attempts.get? key = some later)
    (hconcluded : later.Concluded) : s.attempts.get? key = some later := by
  have hcase := completeAttempt_attempts (c := {}) s completion
  generalize (s.completeAttempt completion).1.attempts = after at hcase hlater
  cases hcase with
  | kept => exact hlater
  | completed _ attempt sequence detail =>
    refine concluded_of_modify ?_ hlater hconcluded
    simp [CompletionRecord.settles, hunconfirmed]

/-- Reconciling an attempt that may not be repeated, with no effect observed, concludes
none. -/
theorem unobserved_concludes_none {id : AttemptId} {attempt : Attempt}
    (hattempt : s.attempts.get? id.raw = some attempt) (hrepeat : attempt.idempotent = false)
    (epoch : CoordinatorEpoch) (detail : Text) {key : UInt64} {later : Attempt}
    (hlater : (s.reconcileAttempt id false epoch detail).1.attempts.get? key = some later)
    (hconcluded : later.Concluded) : s.attempts.get? key = some later := by
  have hcase := reconcileAttempt_attempts (c := {}) s id false epoch detail
  generalize (s.reconcileAttempt id false epoch detail).1.attempts = after at hcase hlater
  cases hcase with
  | kept => exact hlater
  | reconciled _ _ _ _ stored sequence hstored =>
    obtain rfl := Option.some.inj (hattempt.symm.trans hstored)
    refine concluded_of_modify ?_ hlater hconcluded
    simp [Attempt.reconciles, hrepeat]

/-- Until a durable state is recovered, a settled attempt stays in the table as it is and no
attempt is dispatched again; a recovery leaves the attempts of the durable state, none of
them dispatched; and neither an unconfirmed completion nor the reconciliation of an
unobserved effect that may not be repeated concludes an attempt. -/
theorem attempts_settle_once (hs : ReachableState c s) :
    (∀ ops, Along (step c) (fun t op => ¬op.Recovers c t) s ops →
      NextTable s.attempts (runOps c s ops).attempts) ∧
    (∀ op, op.Recovers c s →
      (∃ d newEpoch, op = .importDurableState d newEpoch ∧
        (step c s op).attempts = d.unsettledAttempts.mapValues fun _ => Attempt.recovered) ∧
      ∀ key later, (step c s op).attempts.get? key = some later → later.state ≠ .dispatched) ∧
    (∀ completion : CompletionRecord, completion.confirmed = false → ∀ key later,
      (step c s (.completeAttempt completion)).attempts.get? key = some later →
        later.Concluded → s.attempts.get? key = some later) ∧
    ∀ (id : AttemptId) attempt, s.attempts.get? id.raw = some attempt →
      attempt.idempotent = false → ∀ epoch detail key later,
        (step c s (.reconcileAttempt id false epoch detail)).attempts.get? key = some later →
          later.Concluded → s.attempts.get? key = some later := by
  refine ⟨fun ops hops => run_next hs hops, ?_, ?_, ?_⟩
  · intro op hop
    obtain ⟨d, newEpoch, himport, hattempts⟩ := recovered_attempts hop
    refine ⟨⟨d, newEpoch, himport, hattempts⟩, ?_⟩
    intro key later hlater
    rw [hattempts, OrdMap.get?_mapValues, Option.map_eq_some_iff] at hlater
    obtain ⟨before, _, rfl⟩ := hlater
    exact before.recovered_ne_dispatched
  · intro completion hunconfirmed key later hlater hconcluded
    exact unconfirmed_concludes_none hunconfirmed hlater hconcluded
  · intro id attempt hattempt hrepeat epoch detail key later hlater hconcluded
    exact unobserved_concludes_none hattempt hrepeat epoch detail hlater hconcluded

/-! ### A completed attempt -/

/-- The attempt completes. -/
def attemptCompleted : List Operation :=
  attemptDispatched ++
    [.completeAttempt
      { attempt := ⟨1⟩, worker := ⟨1⟩, boot := ⟨7⟩, success := true, confirmed := true }]

/-- The attempt is reported once more, as failed, it is reconciled, and another one begins. -/
def attemptRepeated : List Operation :=
  [.completeAttempt { attempt := ⟨1⟩, worker := ⟨1⟩, boot := ⟨7⟩, confirmed := true },
    .reconcileAttempt ⟨1⟩ true {} [],
    .beginAttempt { worker := ⟨1⟩, boot := ⟨7⟩, model := ⟨1⟩, version := ⟨1⟩ }]

/-- A completion that does not say what became of the attempt. -/
def unconfirmedCompletion : CompletionRecord :=
  { attempt := ⟨1⟩, worker := ⟨1⟩, boot := ⟨7⟩ }

/-- The outcome of the attempt is unknown. -/
def attemptUnconfirmed : List Operation :=
  attemptDispatched ++ [.completeAttempt unconfirmedCompletion]

/-- The attempt stays out while other models are registered. -/
def attemptOutstanding : List Operation :=
  attemptDispatched ++
    [.registerModel [110] [] .synthetic, .registerModel [111] [] .synthetic]

/-- The recovery of a state in which the attempt is out. -/
def outstandingRecovery : Operation :=
  .importDurableState (runOps {} (init {}) attemptOutstanding).exportDurableState ⟨2⟩

theorem attempts_settle_once_witness :
    let completed := runOps {} (init {}) attemptCompleted
    let dispatched := runOps {} (init {}) attemptDispatched
    let unconfirmed := runOps {} (init {}) attemptUnconfirmed
    (completed.attempts.get? 1).map Attempt.state = some .completed ∧
      NextTable completed.attempts (runOps {} completed attemptRepeated).attempts ∧
      (∀ key later, (step {} completed outstandingRecovery).attempts.get? key = some later →
        later.state ≠ .dispatched) ∧
      (∀ key later,
        (step {} dispatched (.completeAttempt unconfirmedCompletion)).attempts.get? key =
          some later → later.Concluded → dispatched.attempts.get? key = some later) ∧
      ∀ key later,
        (step {} unconfirmed (.reconcileAttempt ⟨1⟩ false {} [])).attempts.get? key =
          some later → later.Concluded → unconfirmed.attempts.get? key = some later := by
  intro completed dispatched unconfirmed
  refine ⟨by decide +kernel, ?_, ?_, ?_, ?_⟩
  · have hquiet : Along (step {}) (fun t op => ¬op.Recovers {} t) completed attemptRepeated :=
      ⟨fun h => (nomatch h.1), fun h => (nomatch h.1), fun h => (nomatch h.1), trivial⟩
    exact (attempts_settle_once ⟨attemptCompleted, rfl⟩).1 attemptRepeated hquiet
  · have hrecovers : outstandingRecovery.Recovers {} completed := ⟨rfl, by decide +kernel⟩
    exact ((attempts_settle_once ⟨attemptCompleted, rfl⟩).2.1 _ hrecovers).2
  · exact (attempts_settle_once ⟨attemptDispatched, rfl⟩).2.2.1 unconfirmedCompletion rfl
  · obtain ⟨attempt, hattempt, hrepeat⟩ : ∃ attempt,
        unconfirmed.attempts.get? 1 = some attempt ∧ attempt.idempotent = false :=
      ⟨_, rfl, by decide +kernel⟩
    exact (attempts_settle_once ⟨attemptUnconfirmed, rfl⟩).2.2.2 ⟨1⟩ attempt hattempt hrepeat {} []

/-! ### A recovery from a longer history -/


/-- An engine that completed the attempt recovers the state of one that did not, and the
attempt is unsettled again. -/
theorem recovery_reopens_attempt :
    ((runOps {} (init {}) attemptCompleted).attempts.get? 1).map Attempt.state =
        some .completed ∧
      ((step {} (runOps {} (init {}) attemptCompleted)
          (.importDurableState (runOps {} (init {}) attemptOutstanding).exportDurableState
            ⟨2⟩)).attempts.get? 1).map Attempt.state = some .outcomeUnknown := by
  decide +kernel

/-! ## Attempts in flight -/

/-- Every dispatched attempt that names a worker can still be settled by it: the lease of
the worker is not fenced, and is for the boot of the attempt. -/
def Answerable (s : EngineState) : Prop :=
  ∀ key attempt, s.attempts.get? key = some attempt → attempt.worker.valid = true →
    attempt.state = .dispatched → ∀ lease, s.workerOf attempt.worker = some lease →
      lease.fenced = false ∧ lease.boot = attempt.boot

/-- Every dispatched attempt that names a worker names one with a lease. -/
def Hosted (s : EngineState) : Prop :=
  ∀ key attempt, s.attempts.get? key = some attempt → attempt.worker.valid = true →
    attempt.state = .dispatched → ∃ lease, s.workerOf attempt.worker = some lease

/-- A dispatched attempt was there before the operation, or is begun by it. -/
theorem AttemptsCase.dispatched {op : Operation} {after : OrdMap UInt64 Attempt}
    (h : AttemptsCase c s op after) {key : UInt64} {attempt : Attempt}
    (hattempt : after.get? key = some attempt) (hstate : attempt.state = .dispatched) :
    s.attempts.get? key = some attempt ∨
      ∃ request, op = .beginAttempt request ∧ attempt.worker = request.worker ∧
        attempt.boot = request.boot ∧
        (s.checkWorker request.worker request.boot request.epoch).allowed = true := by
  cases h with
  | kept => exact Or.inl hattempt
  | fenced worker boot epoch reason lease after hlease hswept =>
    have hkey := hswept key
    rw [hattempt] at hkey
    cases hbefore : s.attempts.get? key with
    | none =>
      rw [hbefore] at hkey
      cases hkey
    | some before =>
      rw [hbefore] at hkey
      cases hkey with
      | some hsame =>
        cases hsame with
        | kept => exact Or.inl rfl
        | left => cases hstate
  | begun request new hid hworker hchecked =>
    rw [OrdMap.get?_insertNew] at hattempt
    split_ifs at hattempt with hkey
    · cases hbefore : s.attempts.get? new.id.raw with
      | none =>
        rw [hbefore, Option.getD_none] at hattempt
        obtain rfl := Option.some.inj hattempt
        exact Or.inr ⟨request, rfl, hworker.1, hworker.2, hchecked⟩
      | some before =>
        rw [hbefore, Option.getD_some] at hattempt
        rw [hkey, hbefore]
        exact Or.inl hattempt
    · exact Or.inl hattempt
  | completed completion settled sequence detail =>
    rw [OrdMap.get?_modify, Option.map_eq_some_iff] at hattempt
    obtain ⟨before, hbefore, rfl⟩ := hattempt
    split_ifs at hstate ⊢
    · exact absurd hstate completion.settles_ne_dispatched
    · exact Or.inl hbefore
  | reconciled id sideEffectObserved epoch detail settled =>
    rw [OrdMap.get?_modify, Option.map_eq_some_iff] at hattempt
    obtain ⟨before, hbefore, rfl⟩ := hattempt
    split_ifs at hstate ⊢
    · exact absurd hstate (settled.reconciles_ne_dispatched sideEffectObserved)
    · exact Or.inl hbefore
  | recovered =>
    rw [OrdMap.get?_mapValues, Option.map_eq_some_iff] at hattempt
    obtain ⟨before, _, rfl⟩ := hattempt
    exact absurd hstate before.recovered_ne_dispatched

/-- A worker that passes the check for an attempt is at its current boot. -/
theorem current_of_checkWorker {worker : WorkerId} {boot : WorkerBootId}
    {epoch : CoordinatorEpoch} (hallowed : (s.checkWorker worker boot epoch).allowed = true)
    (hvalid : worker.valid = true) :
    ∃ lease, s.workerOf worker = some lease ∧ lease.fenced = false ∧ lease.boot = boot := by
  unfold checkWorker at hallowed
  cases hlease : s.workerOf worker with
  | none => simp [hvalid, hlease, OutcomeCode.isPositive] at hallowed
  | some lease =>
    simp only [hvalid, hlease, Bool.not_true, Bool.false_eq_true, if_false] at hallowed
    split_ifs at hallowed with hfenced hboot hepoch
    · simp [OutcomeCode.isPositive] at hallowed
    · simp [OutcomeCode.isPositive] at hallowed
    · simp [OutcomeCode.isPositive] at hallowed
    · refine ⟨lease, rfl, Bool.eq_false_iff.mpr hfenced, ?_⟩
      by_contra hother
      exact hboot (Or.inr hother)

/-- A recovery leaves no attempt dispatched. -/
theorem not_dispatched_of_recovers {op : Operation} (hop : op.Recovers c s) {key : UInt64}
    {attempt : Attempt} (hattempt : (step c s op).attempts.get? key = some attempt) :
    attempt.state ≠ .dispatched := by
  obtain ⟨d, newEpoch, _, hattempts⟩ := recovered_attempts hop
  rw [hattempts, OrdMap.get?_mapValues, Option.map_eq_some_iff] at hattempt
  obtain ⟨before, _, rfl⟩ := hattempt
  exact before.recovered_ne_dispatched

/-- Leases stay, but for a recovery. -/
theorem step_keeps_lease (hs : Coherent s) {op : Operation} (hop : ¬op.Recovers c s)
    {worker : WorkerId} {lease : WorkerLease} (hlease : s.workerOf worker = some lease) :
    ∃ later, (step c s op).workerOf worker = some later := by
  cases himport : op.isImport with
  | false => exact (step_leases hs op).keeps himport hlease
  | true =>
    rw [step_of_refused_import himport hop]
    exact ⟨lease, hlease⟩

theorem step_hosted (hs : Coherent s) (h : Hosted s) (op : Operation) :
    Hosted (step c s op) := by
  intro key attempt hattempt hvalid hstate
  by_cases hop : op.Recovers c s
  · exact absurd hstate (not_dispatched_of_recovers hop hattempt)
  have hhost : ∃ lease, s.workerOf attempt.worker = some lease := by
    rcases (step_attempts hs op).dispatched hattempt hstate with hbefore | ⟨request, _, hnew⟩
    · exact h key attempt hbefore hvalid hstate
    · obtain ⟨hworker, hboot, hchecked⟩ := hnew
      rw [hworker] at hvalid ⊢
      obtain ⟨lease, hlease, _⟩ := current_of_checkWorker hchecked hvalid
      exact ⟨lease, hlease⟩
  obtain ⟨lease, hlease⟩ := hhost
  exact step_keeps_lease hs hop hlease

/-! ### One step -/

/-- An operation leaves no worker without its lease while an attempt of it is dispatched. -/
def Operation.AbandonsNone (s : EngineState) : Operation → Prop
  | .invalidateVolatileState _ => ∀ key attempt, s.attempts.get? key = some attempt →
      attempt.worker.valid = true → attempt.state ≠ .dispatched
  | _ => True

theorem fence_answerable (h : Answerable s) {worker : WorkerId} {lease : WorkerLease}
    (hlease : s.workerOf worker = some lease) (reason : Text) :
    Answerable (s.fence worker lease reason) := by
  intro key attempt hattempt hvalid hstate later hlater
  have hlanded := fence_landed s worker lease reason key attempt hattempt
  have hbefore : s.attempts.get? key = some attempt := by
    have hkey := fence_swept s worker lease reason key
    rw [hattempt] at hkey
    cases hstored : s.attempts.get? key with
    | none =>
      rw [hstored] at hkey
      cases hkey
    | some before =>
      rw [hstored] at hkey
      cases hkey with
      | some hsame =>
        cases hsame with
        | kept => rfl
        | left => cases hstate
  unfold workerOf at hlater
  rw [fence_workers, OrdMap.get?_modify, Option.map_eq_some_iff] at hlater
  obtain ⟨before, hstored, rfl⟩ := hlater
  have hanswers := h key attempt hbefore hvalid hstate before hstored
  split_ifs with hworker
  · -- The attempt is of the fenced boot, and no such attempt is left in flight.
    have hsame : attempt.worker = worker := Ident.ext hworker
    rw [← hsame] at hlease
    obtain rfl := Option.some.inj (hstored.symm.trans hlease)
    exact absurd ⟨hanswers.2.symm, hstate⟩ hlanded
  · exact hanswers

theorem invalidateVolatileState_answerable_iff (hhosted : Hosted s) (cause : Text) :
    Answerable (s.invalidateVolatileState cause) ↔
      ∀ key attempt, s.attempts.get? key = some attempt → attempt.worker.valid = true →
        attempt.state ≠ .dispatched := by
  have hattempts : (s.invalidateVolatileState cause).attempts = s.attempts :=
    (invalidateVolatileState_framed s cause).attempts rfl
  constructor
  · intro h key attempt hattempt hvalid hstate
    obtain ⟨lease, hlease⟩ := hhosted key attempt hattempt hvalid hstate
    have hworkers : (s.invalidateVolatileState cause).workers =
        s.workers.mapValues fun _ => fencedLease (clampDetail cause maxReasonDetail) :=
      congrArg EngineState.workers (stampEntered_eq _ _)
    have hfenced : (s.invalidateVolatileState cause).workerOf attempt.worker =
        some (fencedLease (clampDetail cause maxReasonDetail) lease) := by
      unfold workerOf at hlease ⊢
      rw [hworkers, OrdMap.get?_mapValues, hlease]
      rfl
    rw [← hattempts] at hattempt
    have hactive := (h key attempt hattempt hvalid hstate _ hfenced).1
    cases hactive
  · intro h key attempt hattempt hvalid hstate
    rw [hattempts] at hattempt
    exact absurd hstate (h key attempt hattempt hvalid)

/-- An operation that leaves the leases alone begins attempts at current boots only. -/
theorem answerable_of_same_leases (h : Answerable s) {op : Operation} {s' : EngineState}
    (hworkers : s'.workers = s.workers) (hattempts : AttemptsCase c s op s'.attempts) :
    Answerable s' := by
  intro key attempt hattempt hvalid hstate lease hlease
  unfold workerOf at hlease
  rw [hworkers] at hlease
  rcases hattempts.dispatched hattempt hstate with hbefore | ⟨request, _, hworker, hboot, hchecked⟩
  · exact h key attempt hbefore hvalid hstate lease hlease
  · rw [hworker] at hvalid hlease
    obtain ⟨current, hcurrent, hactive, hsame⟩ := current_of_checkWorker hchecked hvalid
    obtain rfl := Option.some.inj (hcurrent.symm.trans hlease)
    rw [hboot]
    exact ⟨hactive, hsame⟩

/-- A registration does not take the worker of a dispatched attempt to another boot. -/
theorem answerable_of_registered (hhosted : Hosted s) (h : Answerable s)
    {registration : WorkerRegistration} (hadmitted : registration.Admitted c s)
    {s' : EngineState}
    (hworkers : s'.workers = s.workers.insert registration.id.raw (registration.lease s))
    (hattempts : s'.attempts = s.attempts) : Answerable s' := by
  intro key attempt hattempt hvalid hstate lease hlease
  rw [hattempts] at hattempt
  unfold workerOf at hlease
  rw [hworkers, OrdMap.get?_insert] at hlease
  split_ifs at hlease with hworker
  · have hsame : attempt.worker = registration.id := Ident.ext hworker
    obtain rfl := Option.some.inj hlease
    obtain ⟨held, hheld⟩ := hhosted key attempt hattempt hvalid hstate
    have hanswers := h key attempt hattempt hvalid hstate held hheld
    rw [hsame] at hheld
    rcases hadmitted.vacant held hheld with hfenced | hboot
    · rw [hanswers.1] at hfenced
      cases hfenced
    · exact ⟨rfl, hboot.symm.trans hanswers.2⟩
  · exact h key attempt hattempt hvalid hstate lease hlease

theorem step_answerable_iff (hs : Coherent s) (hhosted : Hosted s) (h : Answerable s)
    (op : Operation) : Answerable (step c s op) ↔ op.AbandonsNone s := by
  have hleases := step_leases (c := c) hs op
  have hattempts := step_attempts (c := c) hs op
  generalize hnext : step c s op = s' at hleases hattempts ⊢
  generalize hworkers : s'.workers = workers at hleases
  cases hleases with
  | kept =>
    cases op with
    | invalidateVolatileState cause =>
      rw [← hnext]
      exact invalidateVolatileState_answerable_iff hhosted cause
    | _ => exact iff_of_true (answerable_of_same_leases h hworkers hattempts) trivial
  | registered registration hadmitted =>
    refine iff_of_true ?_ trivial
    refine answerable_of_registered hhosted h hadmitted hworkers ?_
    generalize s'.attempts = attempts at hattempts
    cases hattempts
    rfl
  | fenced worker boot epoch reason =>
    refine iff_of_true ?_ trivial
    rcases fenceWorker_cases s worker boot epoch reason with hsame | ⟨lease, hlease, _, hfence⟩
    · rw [← hnext]
      have hstep : step c s (.fenceWorker worker boot epoch reason) = s := hsame
      rw [hstep]
      exact h
    · have hstep : step c s (.fenceWorker worker boot epoch reason) =
          s.fence worker lease reason := hfence
      rw [← hnext, hstep]
      exact fence_answerable h hlease reason
  | cleared cause =>
    rw [← hnext]
    exact invalidateVolatileState_answerable_iff hhosted cause
  | recovered d newEpoch =>
    refine iff_of_true ?_ trivial
    rw [← hnext]
    by_cases hop : (Operation.importDurableState d newEpoch).Recovers c s
    · intro key attempt hattempt _ hstate
      exact absurd hstate (not_dispatched_of_recovers hop hattempt)
    · rw [step_of_refused_import rfl hop]
      exact h

/-- Along a run every dispatched attempt that names a worker can still be settled by it
exactly when no volatile state is invalidated while such an attempt is dispatched. -/
theorem dispatched_answerable_iff (c : EngineConfig) (ops : List Operation) :
    Always (step c) Answerable (init c) ops ↔
      Along (step c) (fun s op => op.AbandonsNone s) (init c) ops := by
  have hall : ∀ op ∈ ops, (fun _ : Operation => True) op := fun _ _ => trivial
  refine Runs.always_iff_along (step c) (P := fun s => Coherent s ∧ Hosted s) ?_ ?_ hall ?_ ?_
  · rintro s op ⟨hs, hhosted⟩ _
    exact ⟨(step_cases hs op).coherent hs, step_hosted hs hhosted op⟩
  · rintro s op ⟨hs, hhosted⟩ h _
    exact step_answerable_iff hs hhosted h op
  · refine ⟨coherent_init c, ?_⟩
    intro key attempt hattempt
    cases hattempt
  · intro key attempt hattempt
    cases hattempt

/-- A fence that takes the lease of a worker leaves its dispatched attempts with an unknown
outcome. -/
theorem fenced_attempt_unknown {worker : WorkerId} {boot : WorkerBootId}
    {epoch : CoordinatorEpoch} {reason : Text} {lease fenced : WorkerLease}
    (hlease : s.workerOf worker = some lease) (hactive : lease.fenced = false)
    (hfenced : (step c s (.fenceWorker worker boot epoch reason)).workerOf worker = some fenced)
    (htaken : fenced.fenced = true) {key : UInt64} {attempt : Attempt}
    (hattempt : s.attempts.get? key = some attempt) (hflight : attempt.InFlight lease.boot) :
    ∃ later, (step c s (.fenceWorker worker boot epoch reason)).attempts.get? key = some later ∧
      later.state = .outcomeUnknown := by
  rcases fenceWorker_cases s worker boot epoch reason with hsame | ⟨stored, hstored, _, hfence⟩
  · have hstep : step c s (.fenceWorker worker boot epoch reason) = s := hsame
    rw [hstep, hlease] at hfenced
    obtain rfl := Option.some.inj hfenced
    rw [hactive] at htaken
    cases htaken
  · obtain rfl := Option.some.inj (hlease.symm.trans hstored)
    have hstep : step c s (.fenceWorker worker boot epoch reason) =
        s.fence worker lease reason := hfence
    rw [hstep]
    have hkey := fence_swept s worker lease reason key
    rw [hattempt] at hkey
    cases hafter : (s.fence worker lease reason).attempts.get? key with
    | none =>
      rw [hafter] at hkey
      cases hkey
    | some later =>
      rw [hafter] at hkey
      cases hkey with
      | some hswept =>
        cases hswept with
        | kept => exact absurd hflight (fence_landed s worker lease reason key attempt hafter)
        | left => exact ⟨_, rfl, rfl⟩

/-- A recovery leaves the dispatched attempts of the durable state with an unknown outcome. -/
theorem recovered_attempt_unknown {op : Operation} (hop : op.Recovers c s) :
    ∃ d newEpoch, op = .importDurableState d newEpoch ∧
      ∀ key attempt, d.unsettledAttempts.get? key = some attempt →
        attempt.state = .dispatched →
          ∃ later, (step c s op).attempts.get? key = some later ∧
            later.state = .outcomeUnknown := by
  obtain ⟨d, newEpoch, himport, hattempts⟩ := recovered_attempts hop
  refine ⟨d, newEpoch, himport, ?_⟩
  intro key attempt hattempt hstate
  refine ⟨attempt.recovered, ?_, ?_⟩
  · rw [hattempts, OrdMap.get?_mapValues, hattempt]
    rfl
  · unfold Attempt.recovered
    rw [if_pos hstate]

/-- A fence and a recovery leave the attempts in flight of the leases they take with an
unknown outcome; an invalidation of volatile state does not, and along a run every
dispatched attempt that names a worker can still be settled by it exactly when none is
invalidated while such an attempt is dispatched. -/
theorem lost_leases_settle_attempts (c : EngineConfig) (ops : List Operation) :
    (Always (step c) Answerable (init c) ops ↔
      Along (step c) (fun s op => op.AbandonsNone s) (init c) ops) ∧
    (∀ s worker boot epoch reason lease fenced, s.workerOf worker = some lease →
      lease.fenced = false →
      (step c s (.fenceWorker worker boot epoch reason)).workerOf worker = some fenced →
      fenced.fenced = true → ∀ key attempt, s.attempts.get? key = some attempt →
        attempt.InFlight lease.boot →
        ∃ later, (step c s (.fenceWorker worker boot epoch reason)).attempts.get? key =
            some later ∧ later.state = .outcomeUnknown) ∧
    ∀ s op, op.Recovers c s → ∃ d newEpoch, op = .importDurableState d newEpoch ∧
      ∀ key attempt, d.unsettledAttempts.get? key = some attempt →
        attempt.state = .dispatched →
          ∃ later, (step c s op).attempts.get? key = some later ∧
            later.state = .outcomeUnknown := by
  refine ⟨dispatched_answerable_iff c ops, ?_, ?_⟩
  · intro s worker boot epoch reason lease fenced hlease hactive hfenced htaken key attempt
      hattempt hflight
    exact fenced_attempt_unknown hlease hactive hfenced htaken hattempt hflight
  · intro s op hop
    exact recovered_attempt_unknown hop

/-- The engine is restarted while an attempt is out: the attempt stays dispatched, and the
lease of its worker is fenced. -/
theorem invalidation_strands_attempt :
    ¬Always (step {}) Answerable (init {})
      (attemptDispatched ++ [.invalidateVolatileState []]) := by
  intro h
  have hlast := h (attemptDispatched ++ [.invalidateVolatileState []]) List.prefix_rfl
  have hanswers := hlast 1 dispatchedAttempt (by decide +kernel) (by decide +kernel)
    (by decide +kernel)
  have hfenced : ((run (step {}) (init {})
      (attemptDispatched ++ [.invalidateVolatileState []])).workerOf ⟨1⟩).map
        WorkerLease.fenced = some true := by decide +kernel
  obtain ⟨lease, hlease, hlost⟩ := Option.map_eq_some_iff.mp hfenced
  have hactive := (hanswers lease hlease).1
  rw [hlost] at hactive
  cases hactive

end LifecycleFabric
