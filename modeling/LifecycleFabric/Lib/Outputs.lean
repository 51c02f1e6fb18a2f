import LifecycleFabric.Lib.Runs

/-!
# What a run sends

A step of a system sends a list of things, and a run sends what its steps send, in order. What
is known of a state and of everything that was sent before it is kept along a run when each
step keeps it.
-/

namespace Runs

variable {σ ο α : Type*} (step : σ → ο → σ) (sends : σ → ο → List α)

/-- What the steps of a run send. -/
def outputs : σ → List ο → List α
  | _, [] => []
  | s, op :: ops => sends s op ++ outputs (step s op) ops

/-- What each step meeting a condition preserves of the state and of what was sent, a run of such
steps preserves. -/
theorem outputs_preserves {P : σ → List α → Prop} {condition : σ → ο → Prop}
    (hstep : ∀ s op sent, P s sent → condition s op → P (step s op) (sent ++ sends s op)) {s : σ}
    {ops : List ο} {sent : List α} (halong : Along step condition s ops) (hs : P s sent) :
    P (run step s ops) (sent ++ outputs step sends s ops) := by
  induction ops generalizing s sent with
  | nil =>
    rw [outputs, List.append_nil]
    exact hs
  | cons op ops ih =>
    obtain ⟨hop, hrest⟩ := halong
    rw [outputs, ← List.append_assoc]
    exact ih hrest (hstep s op sent hs hop)

end Runs
