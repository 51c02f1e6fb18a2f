import Mathlib

/-!
# Checks in order

A validation is a computation in `Except`: it goes on with a value, or stops with the
first error. Each lemma reads the success of a step as the fact the step decides, so
that the success of a whole validation unfolds into a conjunction.
-/

namespace Validation

variable {ε α β : Type}

/-- Stop with an error unless a condition holds. -/
def ensure (condition : Prop) [Decidable condition] (error : ε) : Except ε Unit :=
  if condition then .ok () else .error error

/-- Go on with the value found, or stop with an error. -/
def need (found : Option α) (error : ε) : Except ε α :=
  match found with
  | some value => .ok value
  | none => .error error

/-- Check the elements of a list in order. -/
def each (check : α → Except ε Unit) : List α → Except ε Unit
  | [] => .ok ()
  | x :: xs => do
    check x
    each check xs

/-! ## Success of each step -/

@[simp] theorem ensure_ok {condition : Prop} [Decidable condition] {error : ε} {u : Unit} :
    ensure condition error = .ok u ↔ condition := by
  unfold ensure
  split_ifs with h <;> simp [h]

@[simp] theorem need_ok {found : Option α} {error : ε} {value : α} :
    need found error = .ok value ↔ found = some value := by
  cases found <;> simp [need]

theorem bind_ok {x : Except ε α} {f : α → Except ε β} {b : β} :
    x >>= f = .ok b ↔ ∃ a, x = .ok a ∧ f a = .ok b := by
  cases x <;> simp [bind, Except.bind]

theorem pure_ok {a b : α} : (pure a : Except ε α) = .ok b ↔ a = b := by
  simp [pure, Except.pure]

@[simp] theorem each_ok {check : α → Except ε Unit} {xs : List α} {u : Unit} :
    each check xs = .ok u ↔ ∀ x ∈ xs, check x = .ok () := by
  induction xs with
  | nil => simp [each]
  | cons x xs ih =>
    simp only [each, bind_ok, ih, List.forall_mem_cons]
    constructor
    · rintro ⟨_, hx, hxs⟩
      exact ⟨hx, hxs⟩
    · rintro ⟨hx, hxs⟩
      exact ⟨(), hx, hxs⟩

/-! ## Failure of each step -/

/-- Every error a computation can stop with has a property. -/
def Fails (P : ε → Prop) (x : Except ε α) : Prop := ∀ error, x = .error error → P error

theorem fails_ok {P : ε → Prop} (a : α) : Fails P (.ok a : Except ε α) := by
  intro error h
  cases h

theorem fails_ensure {P : ε → Prop} {condition : Prop} [Decidable condition] {error : ε}
    (h : P error) : Fails P (ensure condition error) := by
  intro found hfound
  unfold ensure at hfound
  split_ifs at hfound
  obtain rfl := Except.error.inj hfound
  exact h

theorem fails_need {P : ε → Prop} {found : Option α} {error : ε} (h : P error) :
    Fails P (need found error) := by
  intro stopped hstopped
  cases found with
  | none =>
    obtain rfl := Except.error.inj hstopped
    exact h
  | some value => cases hstopped

theorem fails_bind {P : ε → Prop} {x : Except ε α} {f : α → Except ε β} (hx : Fails P x)
    (hf : ∀ a, Fails P (f a)) : Fails P (x >>= f) := by
  intro error herror
  cases x with
  | error stopped =>
    obtain rfl := Except.error.inj herror
    exact hx stopped rfl
  | ok a => exact hf a error herror

theorem fails_each {P : ε → Prop} {check : α → Except ε Unit} (h : ∀ a, Fails P (check a))
    (xs : List α) : Fails P (each check xs) := by
  induction xs with
  | nil => exact fails_ok ()
  | cons x xs ih => exact fails_bind (h x) fun _ => ih

theorem fails_each_ensure {P : ε → Prop} {condition : α → Prop} [DecidablePred condition]
    {error : ε} (h : P error) (xs : List α) :
    Fails P (each (fun x => ensure (condition x) error) xs) :=
  fails_each (fun _ => fails_ensure h) xs

end Validation
