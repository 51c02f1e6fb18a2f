import LifecycleFabric.Status

/-!
# The lifecycle state machine

The states of one model version and the table of legal transitions. `RETIRED` has
no outgoing edge. The engine moves a version to a target state along a shortest
legal path, found breadth first over the table.
-/

namespace LifecycleFabric

/-- Lifecycle state of one model version. -/
inductive LifecycleState
  | registered | validating | promotionEligible | promotionBlocked | canaryPending
  | canaryActive | canaryPassed | canaryFailed | rolloutActive | partiallyPromoted
  | current | draining | rollbackPending | rollingBack | rolledBack | retirementPending
  | retired | revalidationRequired | failed
  deriving DecidableEq

namespace LifecycleState

/-- Every state, in order of its number. -/
def all : List LifecycleState :=
  [.registered, .validating, .promotionEligible, .promotionBlocked, .canaryPending,
    .canaryActive, .canaryPassed, .canaryFailed, .rolloutActive, .partiallyPromoted,
    .current, .draining, .rollbackPending, .rollingBack, .rolledBack, .retirementPending,
    .retired, .revalidationRequired, .failed]

/-- The number of a state. -/
def code (state : LifecycleState) : ℕ := state.ctorIdx

/-- The name of a state. -/
def toText : LifecycleState → Text
  | registered => text "REGISTERED"
  | validating => text "VALIDATING"
  | promotionEligible => text "PROMOTION_ELIGIBLE"
  | promotionBlocked => text "PROMOTION_BLOCKED"
  | canaryPending => text "CANARY_PENDING"
  | canaryActive => text "CANARY_ACTIVE"
  | canaryPassed => text "CANARY_PASSED"
  | canaryFailed => text "CANARY_FAILED"
  | rolloutActive => text "ROLLOUT_ACTIVE"
  | partiallyPromoted => text "PARTIALLY_PROMOTED"
  | current => text "CURRENT"
  | draining => text "DRAINING"
  | rollbackPending => text "ROLLBACK_PENDING"
  | rollingBack => text "ROLLING_BACK"
  | rolledBack => text "ROLLED_BACK"
  | retirementPending => text "RETIREMENT_PENDING"
  | retired => text "RETIRED"
  | revalidationRequired => text "REVALIDATION_REQUIRED"
  | failed => text "FAILED"

/-- The states reachable in one transition, in the order of the table. -/
def successors : LifecycleState → List LifecycleState
  | registered =>
    [validating, promotionBlocked, revalidationRequired, retirementPending, failed]
  | validating =>
    [promotionEligible, promotionBlocked, revalidationRequired, retirementPending, failed]
  | promotionEligible =>
    [canaryPending, validating, promotionBlocked, revalidationRequired, retirementPending, failed]
  | promotionBlocked =>
    [validating, promotionEligible, revalidationRequired, retirementPending, failed]
  | canaryPending =>
    [canaryActive, canaryFailed, promotionBlocked, revalidationRequired, retirementPending, failed]
  | canaryActive =>
    [canaryPassed, canaryFailed, revalidationRequired, rollbackPending, retirementPending, failed]
  | canaryPassed =>
    [rolloutActive, partiallyPromoted, current, canaryFailed, rollbackPending,
      revalidationRequired, draining, retirementPending, failed]
  | canaryFailed =>
    [rollbackPending, rolledBack, draining, retirementPending, revalidationRequired, failed]
  | rolloutActive =>
    [partiallyPromoted, current, rollbackPending, revalidationRequired, draining,
      retirementPending, failed]
  | partiallyPromoted =>
    [rolloutActive, current, rollbackPending, draining, revalidationRequired,
      retirementPending, failed]
  | current =>
    [partiallyPromoted, rollbackPending, draining, revalidationRequired, retirementPending, failed]
  | draining => [rolledBack, retirementPending, revalidationRequired, failed]
  | rollbackPending => [rollingBack, rolledBack, current, revalidationRequired, failed]
  | rollingBack => [rolledBack, revalidationRequired, failed]
  | rolledBack => [draining, retirementPending, revalidationRequired, failed]
  | retirementPending => [retired, draining, rolledBack, revalidationRequired, failed]
  | retired => []
  | revalidationRequired =>
    [validating, promotionEligible, promotionBlocked, draining, rollbackPending,
      retirementPending, failed]
  | failed => [retirementPending, draining, retired]

/-- `RETIRED` is the only state that may never change again. -/
def isTerminal (state : LifecycleState) : Bool := state = retired

/-- The structural check of one transition. -/
def isTransitionAllowed (source target : LifecycleState) : Bool :=
  if source = target then false
  else if source.isTerminal then false
  else source.successors.contains target

/-- The states a promotion may start from. -/
def isPromotableFrom : LifecycleState → Bool
  | registered | validating | promotionEligible | revalidationRequired => true
  | _ => false

theorem isTransitionAllowed_ne {source target : LifecycleState}
    (h : isTransitionAllowed source target = true) : source ≠ target := by
  rintro rfl
  simp [isTransitionAllowed] at h

/-- No transition leaves the terminal state. -/
theorem not_isTransitionAllowed_retired (target : LifecycleState) :
    isTransitionAllowed retired target = false := by
  cases target <;> rfl

theorem mem_all (state : LifecycleState) : state ∈ all := by
  cases state <;> decide

/-! ## Shortest legal paths -/

/-- The search for a path: the queue of states to expand, the states seen, and the
state each one was reached from. -/
structure PathSearch where
  frontier : List LifecycleState
  seen : List LifecycleState
  previous : List (LifecycleState × LifecycleState) := []
  found : Bool := false

/-- Record the unseen successors of one state, stopping at the target. -/
def PathSearch.expand (target source : LifecycleState) :
    List LifecycleState → PathSearch → PathSearch
  | [], search => search
  | next :: rest, search =>
    if search.seen.contains next then expand target source rest search
    else
      let search :=
        { search with
          seen := next :: search.seen
          previous := (next, source) :: search.previous }
      if next = target then { search with found := true }
      else expand target source rest { search with frontier := search.frontier ++ [next] }

/-- Expand the queue until the target is found or the queue is empty. Every state
enters the queue at most once, so the number of states bounds the rounds. -/
def PathSearch.run (target : LifecycleState) : ℕ → PathSearch → PathSearch
  | 0, search => search
  | rounds + 1, search =>
    match search.frontier with
    | [] => search
    | source :: frontier =>
      if search.found then search
      else run target rounds (expand target source source.successors { search with frontier })

/-- Follow the recorded predecessors from a state back to the start. -/
def PathSearch.trace (previous : List (LifecycleState × LifecycleState))
    (start : LifecycleState) :
    ℕ → LifecycleState → List LifecycleState → Option (List LifecycleState)
  | 0, _, _ => none
  | steps + 1, cursor, path =>
    if cursor = start then some path
    else
      match previous.find? fun edge => decide (edge.1 = cursor) with
      | none => none
      | some edge => trace previous start steps edge.2 (cursor :: path)

/-- The states passed on a shortest legal path, the start left out. -/
def shortestPath (source target : LifecycleState) : Option (List LifecycleState) :=
  let search := PathSearch.run target all.length { frontier := [source], seen := [source] }
  if search.found then PathSearch.trace search.previous source (all.length + 1) target []
  else none

/-- A path is legal when each of its steps is a transition of the table. -/
def LegalPath (source : LifecycleState) (path : List LifecycleState) : Prop :=
  (source :: path).IsChain fun a b => isTransitionAllowed a b = true

instance (source : LifecycleState) (path : List LifecycleState) :
    Decidable (LegalPath source path) :=
  inferInstanceAs (Decidable (List.IsChain _ _))

private theorem shortestPath_table : ∀ source ∈ all, ∀ target ∈ all, source ≠ target →
    ∀ path ∈ shortestPath source target, LegalPath source path ∧ path.getLast? = some target := by
  decide +kernel

/-- Whether a version in one state can be brought to another. -/
def reaches (source target : LifecycleState) : Bool :=
  decide (source = target) || (shortestPath source target).isSome

private theorem reaches_table : ∀ source ∈ all, source ≠ retired →
    source.reaches retired = true ∧ source.reaches current = true ∧
      source.reaches canaryPending = true ∧ source.reaches canaryActive = true ∧
      source.reaches promotionBlocked = true := by
  decide +kernel

private theorem retired_table : ∀ target ∈ all, shortestPath retired target = none := by
  decide +kernel

/-- The path found is legal and ends at its target. -/
theorem shortestPath_spec {source target : LifecycleState} {path : List LifecycleState}
    (hne : source ≠ target) (h : shortestPath source target = some path) :
    LegalPath source path ∧ path.getLast? = some target :=
  shortestPath_table source (mem_all _) target (mem_all _) hne path h

/-- No path leaves the terminal state. -/
theorem shortestPath_retired (target : LifecycleState) : shortestPath retired target = none :=
  retired_table target (mem_all _)

/-- Every state but the terminal one has legal paths to the states the operations aim at. -/
theorem reaches_of_ne_retired {source : LifecycleState} (hne : source ≠ retired) :
    source.reaches retired = true ∧ source.reaches current = true ∧
      source.reaches canaryPending = true ∧ source.reaches canaryActive = true ∧
      source.reaches promotionBlocked = true :=
  reaches_table source (mem_all _) hne

end LifecycleState

end LifecycleFabric
