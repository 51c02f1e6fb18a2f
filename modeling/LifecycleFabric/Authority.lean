import LifecycleFabric.Lifecycle
import LifecycleFabric.Scope

/-!
# The authority table

Bindings are kept per scope in grant order. A withdrawn binding stays as superseded
history; the others are live. Every table operation but the restore of a recovered
table either appends one binding or rewrites bindings in place.
-/

namespace LifecycleFabric

/-- How a binding holds a scope. -/
inductive AuthorityKind
  | exclusive | canary | splitTraffic | rollbackRetained | draining
  deriving DecidableEq

namespace AuthorityKind

/-- Every kind, in order of its number. -/
def all : List AuthorityKind :=
  [.exclusive, .canary, .splitTraffic, .rollbackRetained, .draining]

/-- The number of a kind. -/
def code (kind : AuthorityKind) : ℕ := kind.ctorIdx

/-- The name of a kind. -/
def toText : AuthorityKind → Text
  | exclusive => text "EXCLUSIVE"
  | canary => text "CANARY"
  | splitTraffic => text "SPLIT_TRAFFIC"
  | rollbackRetained => text "ROLLBACK_RETAINED"
  | draining => text "DRAINING"

end AuthorityKind

/-- One committed authority binding. -/
structure AuthorityBinding where
  scope : ScopeId := {}
  scopeGeneration : ScopeGeneration := {}
  model : ModelId := {}
  version : ModelVersionId := {}
  modelGeneration : ModelGeneration := {}
  artifactSet : ArtifactSetId := {}
  artifactGeneration : ArtifactGeneration := {}
  lifecycleState : LifecycleState := .registered
  kind : AuthorityKind := .exclusive
  rollout : RolloutId := {}
  rolloutGeneration : RolloutGeneration := {}
  stage : RolloutStageId := {}
  stageGeneration : RolloutStageGeneration := {}
  promotion : PromotionId := {}
  promotionGeneration : PromotionGeneration := {}
  rollback : RollbackId := {}
  rollbackGeneration : RollbackGeneration := {}
  epoch : CoordinatorEpoch := {}
  evidenceGeneration : EvidenceGeneration := {}
  grantedSequence : Sequence := {}
  superseded : Bool := false
  deriving DecidableEq

namespace AuthorityBinding

/-- A binding that has not been superseded. -/
def live (binding : AuthorityBinding) : Bool := !binding.superseded

/-- A live binding that holds its scope exclusively. -/
def isLiveExclusive (binding : AuthorityBinding) : Bool :=
  binding.live && decide (binding.kind = .exclusive)

/-- Whether a binding is of a version. -/
def ofVersion (binding : AuthorityBinding) (model : ModelId) (version : ModelVersionId) : Bool :=
  decide (binding.model = model) && decide (binding.version = version)

/-- The binding as superseded history. -/
def supersede (binding : AuthorityBinding) : AuthorityBinding := { binding with superseded := true }

end AuthorityBinding

/-- Bindings by scope. -/
structure AuthorityTable where
  bindings : OrdMap UInt64 (List AuthorityBinding) := OrdMap.empty
  maxBindings : ℕ := 16384
  deriving DecidableEq

namespace AuthorityTable

/-- The bindings of a scope, in grant order. -/
def bindingsFor (table : AuthorityTable) (scope : ScopeId) : List AuthorityBinding :=
  (table.bindings.get? scope.raw).getD []

/-- The live bindings of a scope, in grant order. -/
def liveBindingsFor (table : AuthorityTable) (scope : ScopeId) : List AuthorityBinding :=
  (table.bindingsFor scope).filter AuthorityBinding.live

/-- Every binding, in scope order. -/
def allBindings (table : AuthorityTable) : List AuthorityBinding := table.bindings.values.flatten

/-- Every binding of a version. -/
def bindingsForVersion (table : AuthorityTable) (model : ModelId) (version : ModelVersionId) :
    List AuthorityBinding :=
  table.allBindings.filter (·.ofVersion model version)

/-- Live bindings under a scope subtree, in scope order. -/
def subtreeBindings (table : AuthorityTable) (scopes : ScopeRegistry) (root : ScopeId) :
    List AuthorityBinding :=
  table.bindings.entries.flatMap fun e =>
    if scopes.isAncestorOrSelf root ⟨e.1⟩ then e.2.filter AuthorityBinding.live else []

/-- The number of bindings. -/
def size (table : AuthorityTable) : ℕ := (table.bindings.values.map List.length).sum

/-- Append a binding to its scope. -/
def push (table : AuthorityTable) (binding : AuthorityBinding) : AuthorityTable :=
  { table with
    bindings := table.bindings.insert binding.scope.raw (table.bindingsFor binding.scope ++ [binding]) }

/-- Rewrite the bindings of one scope in place. -/
def mapScope (table : AuthorityTable) (scope : ScopeId)
    (f : AuthorityBinding → AuthorityBinding) : AuthorityTable :=
  { table with bindings := table.bindings.modify scope.raw (List.map f) }

/-- Rewrite every binding in place. -/
def mapAll (table : AuthorityTable) (f : AuthorityBinding → AuthorityBinding) : AuthorityTable :=
  { table with bindings := table.bindings.mapValues fun _ => List.map f }

/-- Why the live bindings of a scope refuse another one: the first refusal met. -/
def coexistenceConflict (binding : AuthorityBinding) (allowCoexistence : Bool) :
    List AuthorityBinding → Option Text
  | [] => none
  | current :: rest =>
    if current.superseded then coexistenceConflict binding allowCoexistence rest
    else if binding.kind = .exclusive ∧ current.kind = .exclusive then
      some (text "scope already holds exclusive authority for another generation")
    else if binding.kind ≠ .exclusive ∧ binding.kind ≠ .rollbackRetained ∧ ¬allowCoexistence then
      some (text "policy does not permit coexistence in this scope")
    else coexistenceConflict binding allowCoexistence rest

/-- Why a binding itself is refused, whatever the table holds. -/
def malformed (binding : AuthorityBinding) : Option Decision :=
  if !binding.scope.valid then
    some (.because .rejected .unknownScope (text "authority binding has no scope"))
  else if !binding.version.valid ∨ !binding.model.valid then
    some (.because .rejected .unknownVersion (text "authority binding has no model version"))
  else if !binding.modelGeneration.valid then
    some (.because .rejected .modelGenerationMismatch
      (text "authority binding has no model generation"))
  else if !binding.scopeGeneration.valid then
    some (.because .rejected .scopeGenerationMismatch
      (text "authority binding has no scope generation"))
  else none

/-- Grant a binding. A second exclusive binding of a scope is refused. -/
def grant (table : AuthorityTable) (binding : AuthorityBinding) (allowCoexistence : Bool) :
    AuthorityTable × Decision :=
  match malformed binding with
  | some refusal => (table, refusal)
  | none =>
    match table.bindings.get? binding.scope.raw with
    | some existing =>
      match coexistenceConflict binding allowCoexistence existing with
      | some detail => (table, .because .conflict .policyDeniesCoexistence detail)
      | none => (table.push binding, .accepted)
    | none =>
      if table.maxBindings ≤ table.size then
        (table, .because .boundsExceeded .boundsHistoryCount
          (text "authority binding bound reached"))
      else (table.push binding, .accepted)

/-- Supersede the first live exclusive binding of a list. -/
def supersedeFirstExclusive : List AuthorityBinding → List AuthorityBinding
  | [] => []
  | binding :: rest =>
    if binding.isLiveExclusive then binding.supersede :: rest
    else binding :: supersedeFirstExclusive rest

/-- Rewrite the exclusive binding of a scope; the displaced binding is returned. -/
def replaceExclusive (table : AuthorityTable) (binding : AuthorityBinding) :
    AuthorityTable × Decision × Option AuthorityBinding :=
  let replacement := { binding with kind := .exclusive }
  let (granted, decision) := table.grant replacement true
  if decision.allowed then (granted, decision, none)
  -- `grant` refuses a second exclusive binding; replacing one is the sanctioned way
  -- to move exclusive authority.
  else if decision.has .policyDeniesCoexistence then
    let existing := table.bindingsFor replacement.scope
    let displaced := existing.find? AuthorityBinding.isLiveExclusive
    let table :=
      { table with
        bindings := table.bindings.modify replacement.scope.raw supersedeFirstExclusive }
    (table.push replacement, .accepted, displaced.map AuthorityBinding.supersede)
  else (table, decision, none)

/-- Supersede every binding of a scope. -/
def supersedeScope (table : AuthorityTable) (scope : ScopeId) : AuthorityTable :=
  table.mapScope scope AuthorityBinding.supersede

/-- Supersede the bindings a rollout generation granted. -/
def supersedeRollout (table : AuthorityTable) (rollout : RolloutId)
    (generation : RolloutGeneration) : AuthorityTable :=
  table.mapAll fun binding =>
    if binding.rollout = rollout ∧ binding.rolloutGeneration = generation then binding.supersede
    else binding

/-- Supersede the bindings of a version in every scope. -/
def supersedeVersion (table : AuthorityTable) (model : ModelId) (version : ModelVersionId) :
    AuthorityTable :=
  table.mapAll fun binding =>
    if binding.ofVersion model version then binding.supersede else binding

/-- The binding as draining, when it is a live serving binding of a version. -/
def drain (model : ModelId) (version : ModelVersionId) (binding : AuthorityBinding) :
    AuthorityBinding :=
  if binding.live ∧ binding.ofVersion model version ∧ binding.kind ≠ .draining ∧
      binding.kind ≠ .rollbackRetained then
    { binding with kind := .draining }
  else binding

/-- Mark the live serving bindings of a version in a scope as draining. -/
def markDraining (table : AuthorityTable) (model : ModelId) (version : ModelVersionId)
    (scope : ScopeId) : AuthorityTable :=
  table.mapScope scope (drain model version)

/-- The checks recovery makes on one binding. -/
def restorableBinding (key : UInt64) (binding : AuthorityBinding) : Bool :=
  decide (binding.scope.raw = key) && binding.scope.valid && binding.model.valid &&
    binding.version.valid && binding.modelGeneration.valid && binding.scopeGeneration.valid &&
    !binding.superseded

/-- The checks recovery makes on the bindings of one scope. -/
def restorableScope (key : UInt64) (bindings : List AuthorityBinding) : Bool :=
  decide (key ≠ 0) && bindings.all (restorableBinding key) &&
    decide ((bindings.filter fun b => decide (b.kind = .exclusive)).length ≤ 1)

/-- Replace the table during recovery. `none` leaves it untouched. -/
def restore (table : AuthorityTable) (bindings : OrdMap UInt64 (List AuthorityBinding)) :
    Option AuthorityTable :=
  if !bindings.entries.all fun e => restorableScope e.1 e.2 then none
  else if table.maxBindings < (bindings.values.map List.length).sum then none
  else some { table with bindings }

end AuthorityTable

end LifecycleFabric
