import LifecycleFabric.Compatibility
import LifecycleFabric.Lifecycle

/-!
# Model and version records

A version record carries its declared content, its lifecycle state with the
generation that guards it, and the latest promotion, rollout and rollback recorded
against it. The lifecycle state changes only along the transition table.
-/

namespace LifecycleFabric

/-- Stable identity of a model family. -/
structure ModelRecord where
  id : ModelId := {}
  name : Text := []
  family : Text := []
  provenance : Provenance := .unknown
  createdSequence : Sequence := {}
  deriving DecidableEq

/-- One version of a model family. -/
structure ModelVersionRecord where
  model : ModelId := {}
  version : ModelVersionId := {}
  label : Text := []
  /-- Revisions of the declared content. -/
  generation : ModelGeneration := ⟨firstGeneration⟩
  predecessor : ModelVersionId := {}
  predecessorGeneration : ModelGeneration := {}
  artifact : ArtifactBinding := {}
  requirements : ModelRequirements := {}
  state : LifecycleState := .registered
  /-- Advances on every lifecycle transition. -/
  lifecycleGeneration : LifecycleGeneration := ⟨firstGeneration⟩
  lastPromotion : PromotionId := {}
  promotionGeneration : PromotionGeneration := {}
  rollout : RolloutId := {}
  rolloutGeneration : RolloutGeneration := {}
  currentStage : RolloutStageId := {}
  currentStageGeneration : RolloutStageGeneration := {}
  /-- Zero when no compatibility has been established. -/
  compatibilityGeneration : CompatibilityGeneration := {}
  lastRollback : RollbackId := {}
  rollbackGeneration : RollbackGeneration := {}
  provenance : Provenance := .unknown
  createdSequence : Sequence := {}
  updatedSequence : Sequence := {}
  deriving DecidableEq

namespace ModelVersionRecord

/-- Whether the version is retired. -/
def retired (record : ModelVersionRecord) : Bool := record.state = .retired

/-- The record one transition later. -/
def moved (record : ModelVersionRecord) (target : LifecycleState) : ModelVersionRecord :=
  { record with
    state := target
    lifecycleGeneration := record.lifecycleGeneration.nextGeneration }

/-- Commit a single transition, enforcing the state machine. -/
def transition (record : ModelVersionRecord) (target : LifecycleState) :
    ModelVersionRecord × Decision :=
  if record.state = target then
    (record, .because .rejected .invalidLifecycleTransition (text "already in the target state"))
  else if !record.state.isTransitionAllowed target then
    (record, .because .rejected .invalidLifecycleTransition
      (record.state.toText ++ text " -> " ++ target.toText))
  else (record.moved target, .accepted)

/-- Commit the transitions of a path, stopping at the first refused one. -/
def followPath (record : ModelVersionRecord) : List LifecycleState → ModelVersionRecord × Decision
  | [] => (record, .accepted)
  | target :: path =>
    let (record, stepped) := record.transition target
    if !stepped.allowed then (record, stepped) else followPath record path

/-- Bring a record to a target state by the shortest legal path. -/
def advanceLifecycleTo (record : ModelVersionRecord) (target : LifecycleState) :
    ModelVersionRecord × Decision :=
  if record.state = target then (record, .accepted)
  else if record.state.isTerminal then
    (record, .because .rejected .versionRetired
      (text "a retired generation cannot change lifecycle state"))
  else
    match record.state.shortestPath target with
    | none =>
      (record, .because .rejected .invalidLifecycleTransition
        (record.state.toText ++ text " -> " ++ target.toText ++ text " has no legal path"))
    | some path => record.followPath path

/-! ## What a lifecycle step changes -/

/-- One committed transition between two records. -/
def Transitioned (before after : ModelVersionRecord) : Prop :=
  ∃ target, before.state.isTransitionAllowed target = true ∧ after = before.moved target

/-- A transition either commits along the table or changes nothing. -/
theorem transition_cases (record : ModelVersionRecord) (target : LifecycleState) :
    (record.state.isTransitionAllowed target = true ∧
        record.transition target = (record.moved target, .accepted)) ∨
      (record.transition target).1 = record ∧ (record.transition target).2.allowed = false := by
  unfold transition
  split_ifs with hsame hallowed
  · right
    exact ⟨rfl, by simp [OutcomeCode.isPositive]⟩
  · right
    exact ⟨rfl, by simp [OutcomeCode.isPositive]⟩
  · left
    exact ⟨by simpa using hallowed, rfl⟩

theorem followPath_chain (record : ModelVersionRecord) (path : List LifecycleState) :
    Relation.ReflTransGen Transitioned record (record.followPath path).1 := by
  induction path generalizing record with
  | nil => exact .refl
  | cons target path ih =>
    rcases record.transition_cases target with ⟨hallowed, hstep⟩ | ⟨hsame, hrefused⟩
    · simp only [followPath, hstep, Decision.allowed_accepted, Bool.not_true, Bool.false_eq_true,
        if_false]
      exact .head ⟨target, hallowed, rfl⟩ (ih _)
    · simp only [followPath, hrefused, Bool.not_false, if_true, hsame]
      exact .refl

/-- A legal path is followed to its end. -/
theorem followPath_of_legal {record : ModelVersionRecord} {path : List LifecycleState}
    (hlegal : record.state.LegalPath path) :
    (record.followPath path).2.allowed = true ∧
      (record.followPath path).1.state = (path.getLast?).getD record.state := by
  induction path generalizing record with
  | nil => exact ⟨rfl, rfl⟩
  | cons target path ih =>
    obtain ⟨hallowed, hrest⟩ := List.isChain_cons_cons.mp hlegal
    rcases record.transition_cases target with ⟨_, hstep⟩ | ⟨_, hrefused⟩
    · obtain ⟨hdecision, hstate⟩ := @ih (record.moved target) hrest
      simp only [followPath, hstep, Decision.allowed_accepted, Bool.not_true,
        Bool.false_eq_true, if_false]
      refine ⟨hdecision, hstate.trans ?_⟩
      cases path with
      | nil => rfl
      | cons next path => simp [List.getLast?_cons]
    · have hne := LifecycleState.isTransitionAllowed_ne hallowed
      simp [transition, hne, hallowed] at hrefused

/-- The lifecycle state moves only along legal transitions. -/
theorem advanceLifecycleTo_chain (record : ModelVersionRecord) (target : LifecycleState) :
    Relation.ReflTransGen Transitioned record (record.advanceLifecycleTo target).1 := by
  unfold advanceLifecycleTo
  split_ifs
  · exact .refl
  · exact .refl
  · split
    · exact .refl
    · exact followPath_chain record _

/-- An advance either reaches its target or changes nothing. -/
theorem advanceLifecycleTo_cases (record : ModelVersionRecord) (target : LifecycleState) :
    ((record.advanceLifecycleTo target).2.allowed = true ∧
        (record.advanceLifecycleTo target).1.state = target) ∨
      (record.advanceLifecycleTo target).2.allowed = false ∧
        (record.advanceLifecycleTo target).1 = record := by
  unfold advanceLifecycleTo
  split_ifs with hsame hterminal
  · left
    exact ⟨rfl, hsame⟩
  · right
    exact ⟨by simp [OutcomeCode.isPositive], rfl⟩
  · split
    · right
      exact ⟨by simp [OutcomeCode.isPositive], rfl⟩
    · rename_i path hpath
      left
      obtain ⟨hlegal, hlast⟩ := LifecycleState.shortestPath_spec hsame hpath
      obtain ⟨hdecision, hstate⟩ := followPath_of_legal hlegal
      exact ⟨hdecision, by rw [hstate, hlast]; rfl⟩

/-- An advance succeeds exactly when the table reaches its target. -/
theorem advanceLifecycleTo_allowed (record : ModelVersionRecord) (target : LifecycleState) :
    (record.advanceLifecycleTo target).2.allowed = record.state.reaches target := by
  unfold advanceLifecycleTo LifecycleState.reaches
  by_cases hsame : record.state = target
  · rw [if_pos hsame, decide_eq_true hsame]
    rfl
  · rw [if_neg hsame, decide_eq_false hsame, Bool.false_or]
    by_cases hterminal : record.state.isTerminal = true
    · have hretired : record.state = .retired := by simpa [LifecycleState.isTerminal] using hterminal
      rw [if_pos hterminal, hretired, LifecycleState.shortestPath_retired]
      simp [OutcomeCode.isPositive]
    · rw [if_neg hterminal]
      cases hpath : record.state.shortestPath target with
      | none => simp [OutcomeCode.isPositive]
      | some path =>
        obtain ⟨hlegal, _⟩ := LifecycleState.shortestPath_spec hsame hpath
        exact (followPath_of_legal hlegal).1

/-- An advance to a state the table reaches ends there. -/
theorem advanceLifecycleTo_state {record : ModelVersionRecord} {target : LifecycleState}
    (h : record.state.reaches target = true) :
    (record.advanceLifecycleTo target).1.state = target := by
  rcases advanceLifecycleTo_cases record target with ⟨_, hstate⟩ | ⟨hrefused, _⟩
  · exact hstate
  · rw [advanceLifecycleTo_allowed, h] at hrefused
    cases hrefused

/-- Retirement can be reached from every other state. -/
theorem advanceLifecycleTo_retired {record : ModelVersionRecord} (h : record.state ≠ .retired) :
    (record.advanceLifecycleTo .retired).2.allowed = true := by
  rw [advanceLifecycleTo_allowed]
  exact (LifecycleState.reaches_of_ne_retired h).1

end ModelVersionRecord

end LifecycleFabric
