import LifecycleFabric.Engine.Reachable

/-!
# The two clocks

Stale callers are fenced by the coordinator epoch, and what changed is told by the event
sequence. No operation but an import lowers either. An import never lowers the sequence,
but it compares the epoch it installs with that of the imported state only, so it may set
the epoch of a running engine back.
-/

namespace LifecycleFabric

open EngineState

variable {c : EngineConfig} {p : Permit} {s s' : EngineState}

/-- Neither clock goes back. -/
structure ClocksAdvance (s s' : EngineState) : Prop where
  epoch : s.epoch ≤ s'.epoch
  sequence : s.sequence ≤ s'.sequence

instance (s s' : EngineState) : Decidable (ClocksAdvance s s') :=
  decidable_of_iff (s.epoch ≤ s'.epoch ∧ s.sequence ≤ s'.sequence)
    ⟨fun h => ⟨h.1, h.2⟩, fun h => ⟨h.epoch, h.sequence⟩⟩

/-- A durable state the engine accepts is imported under an epoch no older than the
engine's own. -/
def Operation.KeepsEpoch (c : EngineConfig) (s : EngineState) : Operation → Prop
  | .importDurableState d newEpoch =>
    (∃ recovered, d.Sound c s newEpoch recovered) → s.epoch ≤ newEpoch
  | _ => True

/-! ## Effects -/

theorem ClocksAdvance.refl (s : EngineState) : ClocksAdvance s s := ⟨le_rfl, le_rfl⟩

theorem ClocksAdvance.trans {s'' : EngineState} (h : ClocksAdvance s s')
    (h' : ClocksAdvance s' s'') : ClocksAdvance s s'' :=
  ⟨h.epoch.trans h'.epoch, h.sequence.trans h'.sequence⟩

theorem Effect.clocks (h : Effect c p s s') : ClocksAdvance s s' := by
  cases h with
  | bump => exact ⟨le_rfl, Ident.le_nextGeneration s.sequence⟩
  | _ => exact ⟨le_rfl, le_rfl⟩

theorem Chain.clocks (h : Chain c p s s') : ClocksAdvance s s' :=
  Runs.chain_preserves (P := ClocksAdvance s) (fun _ _ hab hs => hs.trans hab.clocks) h
    (ClocksAdvance.refl s)

/-- A recovered engine counts on from the greater of the two sequences. -/
theorem sequence_applyDurableState (d : DurableState) (newEpoch : CoordinatorEpoch)
    (recovered : DurableState.Recovered) :
    s.sequence ≤ (s.applyDurableState d newEpoch recovered).sequence := by
  have hmax : s.sequence ≤ max d.sequence s.sequence := le_max_right _ _
  exact hmax.trans (Ident.le_nextGeneration _)

/-! ## Steps -/

/-- A step turns a clock back exactly when it imports under an older epoch. -/
theorem step_clocks_iff (hs : Coherent s) (op : Operation) :
    ClocksAdvance s (step c s op) ↔ op.KeepsEpoch c s := by
  have hcase := step_cases (c := c) hs op
  have himport : ∀ d newEpoch, op = .importDurableState d newEpoch →
      ∀ recovered, d.Sound c s newEpoch recovered → (step c s op).epoch = newEpoch := by
    rintro d newEpoch rfl recovered hsound
    have hvalidate := DurableState.validate_ok.mpr hsound
    simp only [step, perform, importDurableState, hvalidate]
    rfl
  constructor
  · intro hadvance
    cases op with
    | importDurableState d newEpoch =>
      rintro ⟨recovered, hsound⟩
      have hepoch := hadvance.epoch
      rwa [himport d newEpoch rfl recovered hsound] at hepoch
    | _ => trivial
  · intro hkeeps
    generalize step c s op = s' at hcase himport ⊢
    cases hcase with
    | aside h => exact ⟨h.epoch, h.sequence⟩
    | chain p _ _ _ h => exact h.clocks
    | recover d newEpoch recovered h =>
      exact ⟨hkeeps ⟨recovered, h⟩, sequence_applyDurableState d newEpoch recovered⟩

/-! ## Runs -/

/-- Along a run from a constructed engine neither clock goes back exactly as long as every
durable state the engine accepts is imported under an epoch no older than its own. -/
theorem clocks_advance_iff (c : EngineConfig) (ops : List Operation) :
    Runs.Along (step c) (fun s op => ClocksAdvance s (step c s op)) (init c) ops ↔
      Runs.Along (step c) (fun s op => op.KeepsEpoch c s) (init c) ops :=
  Runs.along_iff (P := Coherent) (step c) (fun _ op hs => (step_cases hs op).coherent hs)
    (fun _ op hs => step_clocks_iff hs op) (coherent_init c)

/-- An engine at its third epoch takes in a state saved at the first, under the second. -/
def outdatedImport : List Operation :=
  [.advanceEpoch {}, .advanceEpoch {}, .importDurableState (init {}).exportDurableState ⟨2⟩]

theorem clocks_advance_counterexample :
    ¬∀ (c : EngineConfig) (ops : List Operation),
      Runs.Along (step c) (fun s op => ClocksAdvance s (step c s op)) (init c) ops := by
  intro hclaim
  have hback : ¬Runs.Along (step {}) (fun s op => ClocksAdvance s (step {} s op)) (init {})
      outdatedImport := by
    decide +kernel
  exact hback (hclaim {} outdatedImport)

end LifecycleFabric
