import LifecycleFabric.Engine.Workers

/-!
# Queries

Which version is authoritative for a scope: the exclusive binding of the nearest scope
on the way to the root that holds one. Models are found by name, versions by their label
under a model.
-/

namespace LifecycleFabric

/-- Answer to an authority query. -/
structure AuthorityQueryResult where
  outcome : OutcomeCode := .noAuthoritativeModel
  scope : ScopeId := {}
  scopeGeneration : ScopeGeneration := {}
  /-- The exclusive binding that answers the question, when one exists. -/
  binding : Option AuthorityBinding := none
  /-- Whether the answer came from an ancestor of the scope. -/
  inherited : Bool := false
  inheritedScope : ScopeId := {}
  /-- Canary and split-traffic bindings of the queried scope. -/
  overlays : List AuthorityBinding := []
  /-- Rollback-retained bindings of the queried scope. -/
  retained : List AuthorityBinding := []
  explanation : Explanation := {}
  deriving DecidableEq

/-- The path of a scope; empty when it is not registered. -/
def ScopeRegistry.pathOf (r : ScopeRegistry) (id : ScopeId) : Text :=
  ((r.find id).map ScopeRecord.path).getD []

namespace EngineState

/-- Note a number in an explanation. -/
def noteNumber (key : String) (value : ℕ) (e : Explanation) : Explanation :=
  e.set (text key) (decimal value)

/-- Note a text in an explanation. -/
def noteText (key : String) (value : Text) (e : Explanation) : Explanation :=
  e.set (text key) value

/-- Why an exclusive binding answers a query. -/
def explainBinding (s : EngineState) (result : AuthorityQueryResult) (node : ScopeId)
    (exclusive : AuthorityBinding) (record : ModelVersionRecord) : Explanation :=
  let inherited := decide (node ≠ result.scope)
  let e : Explanation := { outcome := .ok }
  let e := e |> noteText "scope" (s.scopes.pathOf result.scope)
    |> noteNumber "scope_generation" result.scopeGeneration.raw.toNat
    |> noteText "authoritative_scope" (s.scopes.pathOf node)
    |> noteText "inherited" (if inherited then text "yes" else text "no")
    |> noteNumber "model_id" exclusive.model.raw.toNat
    |> noteNumber "model_version_id" exclusive.version.raw.toNat
    |> noteText "model_version_label" record.label
    |> noteNumber "model_generation" exclusive.modelGeneration.raw.toNat
    |> noteNumber "artifact_set_id" exclusive.artifactSet.raw.toNat
    |> noteNumber "artifact_generation" exclusive.artifactGeneration.raw.toNat
    |> noteText "lifecycle_state" record.state.toText
    |> noteText "authority_kind" exclusive.kind.toText
    |> noteNumber "granted_sequence" exclusive.grantedSequence.raw.toNat
  let e :=
    if exclusive.rollout.valid then
      e |> noteNumber "rollout_id" exclusive.rollout.raw.toNat
        |> noteNumber "rollout_generation" exclusive.rolloutGeneration.raw.toNat
        |> noteNumber "rollout_stage_id" exclusive.stage.raw.toNat
        |> noteNumber "rollout_stage_generation" exclusive.stageGeneration.raw.toNat
    else e
  let e :=
    if exclusive.promotion.valid then
      e |> noteNumber "promotion_id" exclusive.promotion.raw.toNat
        |> noteNumber "promotion_generation" exclusive.promotionGeneration.raw.toNat
    else e
  let e := e |> noteNumber "canary_overlays" result.overlays.length
    |> noteNumber "rollback_retained" result.retained.length
  if inherited then
    { e with
      reasons := e.reasons ++ [⟨.policyScopeNotTargetable,
        text ("no authority is committed at this scope; the answer is inherited from the " ++
          "nearest ancestor that holds one")⟩] }
  else e

/-- The result after looking at one scope of the chain: the queried scope itself also
contributes its overlays and retained bindings. -/
def visitScope (s : EngineState) (node : ScopeId) (result : AuthorityQueryResult) :
    AuthorityQueryResult :=
  let live := s.authority.liveBindingsFor node
  if node = result.scope then
    { result with
      overlays := live.filter fun b =>
        decide (b.kind = .canary) || decide (b.kind = .splitTraffic)
      retained := live.filter fun b => decide (b.kind = .rollbackRetained) }
  else result

/-- Walk the scopes from the queried one to the root; the first that holds an exclusive
binding answers. -/
def resolveAuthority (s : EngineState) : List ScopeId → AuthorityQueryResult → AuthorityQueryResult
  | [], result =>
    { result with
      outcome := .noAuthoritativeModel
      explanation :=
        { outcome := .noAuthoritativeModel
          bindings :=
            [(text "scope", s.scopes.pathOf result.scope),
              (text "scope_generation", decimal result.scopeGeneration.raw.toNat),
              (text "canary_overlays", decimal result.overlays.length)]
          reasons := [⟨.noCurrentAuthority,
            text "no scope in the ancestor chain holds a live exclusive binding"⟩] } }
  | node :: rest, result =>
    let exclusives := (s.authority.liveBindingsFor node).filter fun b =>
      decide (b.kind = .exclusive)
    if 1 < exclusives.length then
      { result with
        outcome := .ambiguous
        explanation :=
          { outcome := .ambiguous
            bindings :=
              [(text "scope", s.scopes.pathOf result.scope),
                (text "conflicting_scope", s.scopes.pathOf node),
                (text "exclusive_bindings", decimal exclusives.length)]
            reasons := [⟨.policyDeniesCoexistence,
              text "more than one exclusive authority binding exists for a scope"⟩] } }
    else
      let result := s.visitScope node result
      match exclusives with
      | [] => resolveAuthority s rest result
      | exclusive :: _ =>
        let gone : AuthorityQueryResult :=
          { result with
            outcome := .noAuthoritativeModel
            explanation :=
              { outcome := .noAuthoritativeModel
                bindings := [(text "scope", s.scopes.pathOf result.scope)]
                reasons := [⟨.versionRetired,
                  text ("committed authority points at a generation that no longer exists " ++
                    "or is retired")⟩] } }
        match s.versionOf exclusive.model exclusive.version with
        | none => gone
        | some record =>
          if record.retired then gone
          else
            { result with
              outcome := .ok
              binding := exclusive
              inherited := decide (node ≠ result.scope)
              inheritedScope := node
              explanation := s.explainBinding result node exclusive record }

/-- Ask which version is authoritative for a scope. -/
def queryAuthority (s : EngineState) (scope : ScopeId) : AuthorityQueryResult :=
  match s.scopes.find scope with
  | none =>
    { scope
      explanation :=
        { outcome := .noAuthoritativeModel
          reasons := [⟨.unknownScope, text "scope is not registered"⟩] } }
  | some record =>
    s.resolveAuthority (s.scopes.chain scope).reverse
      { scope, scopeGeneration := record.generation }

/-! ## Lookups -/

/-- The model of a name. -/
def findModelByName (s : EngineState) (name : Text) : Option ModelId := s.modelNames.get? name

/-- The model under a raw identity. -/
def findModelById (s : EngineState) (raw : UInt64) : Option ModelId :=
  (s.models.get? raw).map ModelRecord.id

/-- The version of a model with a label. -/
def findVersionByLabel (s : EngineState) (model : ModelId) (label : Text) :
    Option ModelVersionId :=
  s.versionLabels.get? (toLex (model.raw, label))

/-- All models. -/
def modelRecords (s : EngineState) : List ModelRecord := s.models.values

/-- The versions of a model. -/
def versionRecords (s : EngineState) (model : ModelId) : List ModelVersionRecord :=
  (s.versions.filter fun key _ => (ofLex key).1 == model.raw).values

/-- All versions. -/
def allVersions (s : EngineState) : List ModelVersionRecord := s.versions.values

end EngineState

end LifecycleFabric
