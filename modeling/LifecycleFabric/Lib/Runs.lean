import Mathlib

/-!
# Runs of a deterministic system

A system takes an operation in a state to the next state. A run folds a list of
operations; what every step preserves, every run preserves. `Along` states a condition
on each step of a run.
-/

namespace Runs

variable {σ ο : Type*} (step : σ → ο → σ)

/-- The state a list of operations leads to. -/
def run (s : σ) (ops : List ο) : σ := ops.foldl step s

/-- A state some list of operations leads to. -/
def Reachable (start s : σ) : Prop := ∃ ops, s = run step start ops

/-- Every step of a run meets a condition on the state before it and its operation. -/
def Along (condition : σ → ο → Prop) : σ → List ο → Prop
  | _, [] => True
  | s, op :: ops => condition s op ∧ Along condition (step s op) ops

/-- Every state a run passes through has a property. -/
def Always (Q : σ → Prop) (s : σ) (ops : List ο) : Prop :=
  ∀ before, before <+: ops → Q (run step s before)

instance decidableAlong {condition : σ → ο → Prop} [∀ s op, Decidable (condition s op)] :
    ∀ (s : σ) (ops : List ο), Decidable (Along step condition s ops)
  | _, [] => .isTrue trivial
  | s, op :: ops =>
    @instDecidableAnd _ _ inferInstance (decidableAlong (step s op) ops)

@[simp] theorem run_nil (s : σ) : run step s [] = s := rfl

@[simp] theorem run_cons (s : σ) (op : ο) (ops : List ο) :
    run step s (op :: ops) = run step (step s op) ops := rfl

theorem run_append (s : σ) (ops ops' : List ο) :
    run step s (ops ++ ops') = run step (run step s ops) ops' :=
  List.foldl_append

theorem reachable_refl (start : σ) : Reachable step start start := ⟨[], rfl⟩

theorem Reachable.run {start s : σ} (h : Reachable step start s) (ops : List ο) :
    Reachable step start (run step s ops) := by
  obtain ⟨before, rfl⟩ := h
  exact ⟨before ++ ops, (run_append step start before ops).symm⟩

/-- What each step meeting a condition preserves, a run of such steps preserves. -/
theorem run_preserves {P : σ → Prop} {condition : σ → ο → Prop}
    (hstep : ∀ s op, P s → condition s op → P (step s op)) {s : σ} {ops : List ο}
    (halong : Along step condition s ops) (hs : P s) : P (run step s ops) := by
  induction ops generalizing s with
  | nil => exact hs
  | cons op ops ih =>
    obtain ⟨hop, hrest⟩ := halong
    exact ih hrest (hstep s op hs hop)

/-- What every step preserves holds of every reachable state. -/
theorem reachable_invariant {P : σ → Prop} (hstep : ∀ s op, P s → P (step s op)) {start s : σ}
    (hstart : P start) (h : Reachable step start s) : P s := by
  obtain ⟨ops, rfl⟩ := h
  have htrivial : Along step (fun _ _ => True) start ops := by
    induction ops generalizing start with
    | nil => trivial
    | cons op ops ih => exact ⟨trivial, ih (hstep start op hstart)⟩
  exact run_preserves step (fun s op hs _ => hstep s op hs) htrivial hstart

theorem along_append {condition : σ → ο → Prop} {s : σ} {ops ops' : List ο} :
    Along step condition s (ops ++ ops') ↔
      Along step condition s ops ∧ Along step condition (run step s ops) ops' := by
  induction ops generalizing s with
  | nil => simp [Along]
  | cons op ops ih => simp [Along, ih, and_assoc]

theorem Along.imp {condition condition' : σ → ο → Prop}
    (himp : ∀ s op, condition s op → condition' s op) {s : σ} {ops : List ο}
    (h : Along step condition s ops) : Along step condition' s ops := by
  induction ops generalizing s with
  | nil => trivial
  | cons op ops ih => exact ⟨himp _ _ h.1, ih h.2⟩

theorem along_and {condition condition' : σ → ο → Prop} {s : σ} {ops : List ο} :
    Along step (fun s op => condition s op ∧ condition' s op) s ops ↔
      Along step condition s ops ∧ Along step condition' s ops := by
  induction ops generalizing s with
  | nil => simp [Along]
  | cons op ops ih =>
    simp only [Along, ih]
    tauto

/-- A condition on the operations alone holds along a run when each of them meets it. -/
theorem along_of_forall {condition : ο → Prop} {s : σ} {ops : List ο}
    (h : ∀ op ∈ ops, condition op) : Along step (fun _ op => condition op) s ops := by
  induction ops generalizing s with
  | nil => trivial
  | cons op ops ih =>
    exact ⟨h op List.mem_cons_self, ih fun later hlater => h later (List.mem_cons_of_mem _ hlater)⟩

/-- Conditions that agree wherever an invariant holds agree along every run from there. -/
theorem along_iff {P : σ → Prop} {condition condition' : σ → ο → Prop}
    (hstep : ∀ s op, P s → P (step s op))
    (hiff : ∀ s op, P s → (condition s op ↔ condition' s op)) {s : σ} {ops : List ο} (hs : P s) :
    Along step condition s ops ↔ Along step condition' s ops := by
  induction ops generalizing s with
  | nil => exact Iff.rfl
  | cons op ops ih => exact and_congr (hiff s op hs) (ih (hstep s op hs))

theorem always_cons {Q : σ → Prop} {s : σ} {op : ο} {ops : List ο} :
    Always step Q s (op :: ops) ↔ Q s ∧ Always step Q (step s op) ops := by
  constructor
  · intro h
    refine ⟨h [] List.nil_prefix, ?_⟩
    intro before hbefore
    exact h (op :: before) (List.cons_prefix_cons.mpr ⟨rfl, hbefore⟩)
  · rintro ⟨hs, h⟩ before hbefore
    cases before with
    | nil => exact hs
    | cons first before =>
      obtain ⟨rfl, hrest⟩ := List.cons_prefix_cons.mp hbefore
      exact h before hrest

theorem always_nil {Q : σ → Prop} {s : σ} : Always step Q s [] ↔ Q s := by
  constructor
  · intro h
    exact h [] List.nil_prefix
  · intro hs before hbefore
    rw [List.prefix_nil.mp hbefore]
    exact hs

/-- A property holds all along two runs in a row when it holds all along each. -/
theorem always_append {Q : σ → Prop} {s : σ} {ops ops' : List ο} :
    Always step Q s (ops ++ ops') ↔
      Always step Q s ops ∧ Always step Q (run step s ops) ops' := by
  induction ops generalizing s with
  | nil =>
    rw [List.nil_append, run_nil, always_nil]
    exact ⟨fun h => ⟨h [] List.nil_prefix, h⟩, And.right⟩
  | cons op ops ih => rw [List.cons_append, always_cons, always_cons, ih, run_cons, and_assoc]

theorem Always.imp {Q Q' : σ → Prop} {s : σ} {ops : List ο} (h : Always step Q s ops)
    (himp : ∀ now, Q now → Q' now) : Always step Q' s ops :=
  fun before hbefore => himp _ (h before hbefore)

/-- Where a condition decides what a step makes of a property, it decides whether a run
keeps the property. -/
theorem always_iff_along {P Q : σ → Prop} {allowed : ο → Prop} {condition : σ → ο → Prop}
    (hP : ∀ s op, P s → allowed op → P (step s op))
    (hstep : ∀ s op, P s → Q s → allowed op → (Q (step s op) ↔ condition s op)) {s : σ}
    {ops : List ο} (hops : ∀ op ∈ ops, allowed op) (hs : P s) (hQ : Q s) :
    Always step Q s ops ↔ Along step condition s ops := by
  induction ops generalizing s with
  | nil =>
    refine ⟨fun _ => trivial, ?_⟩
    rintro - before hbefore
    rw [List.prefix_nil.mp hbefore]
    exact hQ
  | cons op ops ih =>
    obtain ⟨hop, hrest⟩ := List.forall_mem_cons.mp hops
    have hnext := hstep s op hs hQ hop
    rw [always_cons, Along]
    constructor
    · rintro ⟨_, h⟩
      have hkept : Q (step s op) := h [] List.nil_prefix
      exact ⟨hnext.mp hkept, (ih hrest (hP s op hs hop) hkept).mp h⟩
    · rintro ⟨hcondition, h⟩
      exact ⟨hQ, (ih hrest (hP s op hs hop) (hnext.mpr hcondition)).mpr h⟩

/-- What each step meeting a condition preserves holds all along a run of such steps. -/
theorem always_of_along {P : σ → Prop} {condition : σ → ο → Prop}
    (hstep : ∀ s op, P s → condition s op → P (step s op)) {s : σ} {ops : List ο}
    (halong : Along step condition s ops) (hs : P s) : Always step P s ops := by
  induction ops generalizing s with
  | nil =>
    intro before hbefore
    rw [List.prefix_nil.mp hbefore]
    exact hs
  | cons op ops ih =>
    obtain ⟨hop, hrest⟩ := halong
    exact (always_cons step).mpr ⟨hs, ih hrest (hstep s op hs hop)⟩

/-- What the property after a step says of the step holds along a run that keeps the
property. -/
theorem along_of_always {P Q : σ → Prop} {allowed : ο → Prop} {condition : σ → ο → Prop}
    (hP : ∀ s op, P s → allowed op → P (step s op))
    (hstep : ∀ s op, P s → allowed op → Q (step s op) → condition s op) {s : σ} {ops : List ο}
    (hops : ∀ op ∈ ops, allowed op) (hs : P s) (h : Always step Q s ops) :
    Along step condition s ops := by
  induction ops generalizing s with
  | nil => trivial
  | cons op ops ih =>
    obtain ⟨hop, hrest⟩ := List.forall_mem_cons.mp hops
    have htail := ((always_cons step).mp h).2
    exact ⟨hstep s op hs hop (htail [] List.nil_prefix), ih hrest (hP s op hs hop) htail⟩

/-- Where a condition on a step keeps an invariant that gives the step a property and the states
another one, and both properties together need the condition, a run has the properties
throughout exactly when it meets the condition throughout. -/
theorem along_and_always_iff_along {P Q : σ → Prop} {property condition : σ → ο → Prop}
    (hQ : ∀ s, P s → Q s)
    (hkeep : ∀ s op, P s → condition s op → property s op ∧ P (step s op))
    (hneed : ∀ s op, P s → property s op → Q (step s op) → condition s op) {s : σ}
    {ops : List ο} (hs : P s) :
    Along step property s ops ∧ Always step Q s ops ↔ Along step condition s ops := by
  induction ops generalizing s with
  | nil =>
    refine ⟨fun _ => trivial, fun _ => ⟨trivial, ?_⟩⟩
    intro before hbefore
    rw [List.prefix_nil.mp hbefore]
    exact hQ s hs
  | cons op ops ih =>
    rw [always_cons]
    constructor
    · rintro ⟨⟨hproperty, hrest⟩, _, halways⟩
      have hcondition := hneed s op hs hproperty (halways [] List.nil_prefix)
      exact ⟨hcondition, (ih (hkeep s op hs hcondition).2).mp ⟨hrest, halways⟩⟩
    · rintro ⟨hcondition, hrest⟩
      obtain ⟨hproperty, hnext⟩ := hkeep s op hs hcondition
      obtain ⟨halong, halways⟩ := (ih hnext).mpr hrest
      exact ⟨⟨hproperty, halong⟩, hQ s hs, halways⟩

/-- What a condition and an invariant give a step, and the invariant after it, a run that meets
the condition has throughout. -/
theorem Along.of_invariant {P : σ → Prop} {condition property : σ → ο → Prop}
    (hkeep : ∀ s op, P s → condition s op → property s op ∧ P (step s op)) {s : σ} {ops : List ο}
    (h : Along step condition s ops) (hs : P s) : Along step property s ops := by
  induction ops generalizing s with
  | nil => trivial
  | cons op ops ih =>
    obtain ⟨hproperty, hnext⟩ := hkeep s op hs h.1
    exact ⟨hproperty, ih h.2 hnext⟩

/-- What every update of a chain preserves, the chain preserves. -/
theorem chain_preserves {R : σ → σ → Prop} {P : σ → Prop} (hR : ∀ a b, R a b → P a → P b)
    {a b : σ} (h : Relation.ReflTransGen R a b) (ha : P a) : P b := by
  induction h with
  | refl => exact ha
  | tail _ hstep ih => exact hR _ _ hstep ih

end Runs
