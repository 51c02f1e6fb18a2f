import LifecycleFabric.Lib.Runs

/-!
# Stamped views

A system shows a view of each of its parts and stamps it. The stamps track the views when
none goes back and every change of a view moves the stamp of that part on. Two times with
one stamp then show one view, unless the stamp is exhausted.
-/

namespace Stamps

variable {σ ι γ ν ο : Type*}

/-- What is seen of each part of a state: a view and its stamp. An exhausted stamp moves no
further. -/
structure Observation (σ ι γ ν : Type*) where
  view : σ → ι → ν
  stamp : σ → ι → γ
  exhausted : γ → Prop

variable [PartialOrder γ] (o : Observation σ ι γ ν)

/-- Where the view of a part changed, its stamp moved on. -/
def Observation.Tracks (s s' : σ) : Prop :=
  ∀ i, o.stamp s i ≤ o.stamp s' i ∧
    (o.view s' i = o.view s i ∨ o.stamp s i < o.stamp s' i ∨ o.exhausted (o.stamp s i))

namespace Observation

variable {o} {s s' s'' : σ}

theorem Tracks.refl (s : σ) : o.Tracks s s := by
  intro i
  exact ⟨le_rfl, Or.inl rfl⟩

theorem Tracks.trans (h : o.Tracks s s') (h' : o.Tracks s' s'') : o.Tracks s s'' := by
  intro i
  obtain ⟨hle, hview⟩ := h i
  obtain ⟨hle', hview'⟩ := h' i
  refine ⟨hle.trans hle', ?_⟩
  rcases hle.lt_or_eq with hlt | heq
  · exact Or.inr (Or.inl (hlt.trans_le hle'))
  · rcases hview with hsame | hlt | hexhausted
    · rw [hsame.symm, heq]
      exact hview'
    · exact absurd heq hlt.ne
    · exact Or.inr (Or.inr hexhausted)

/-- An unexhausted stamp that is seen twice was seen with one view. -/
theorem Tracks.view_eq (h : o.Tracks s s') {i : ι} (hstamp : o.stamp s' i = o.stamp s i)
    (hroom : ¬o.exhausted (o.stamp s i)) : o.view s' i = o.view s i := by
  obtain ⟨_, hsame | hlt | hexhausted⟩ := h i
  · exact hsame
  · exact absurd hstamp.symm hlt.ne
  · exact absurd hexhausted hroom

/-- Stamps that track the views in every step of a run track them over the run. -/
theorem tracks_run {step : σ → ο → σ} {P : σ → Prop} {condition : σ → ο → Prop}
    (hstep : ∀ s op, P s → condition s op → o.Tracks s (step s op) ∧ P (step s op)) {s : σ}
    {ops : List ο} (halong : Runs.Along step condition s ops) (hs : P s) :
    o.Tracks s (Runs.run step s ops) := by
  refine (Runs.run_preserves (P := fun t => o.Tracks s t ∧ P t) step ?_ halong
    ⟨Tracks.refl s, hs⟩).1
  rintro t op ⟨htracks, ht⟩ hop
  obtain ⟨hmoved, hkept⟩ := hstep t op ht hop
  exact ⟨htracks.trans hmoved, hkept⟩

end Observation

end Stamps
