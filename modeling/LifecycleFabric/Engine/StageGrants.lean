import LifecycleFabric.Engine.Admission

/-!
# When the grants of a stage fit

A stage is granted scope by scope, and the first refusal ends it. The state before the
first grant decides whether all of them succeed: each scope needs a place in the table
beside those the earlier grants take, and bindings the policy lets the grant stand beside.
-/

namespace LifecycleFabric

open EngineState AuthorityTable

variable {c : EngineConfig} {p : Permit} {s t t' : EngineState}

/-! ## Canary grants -/

/-- A canary is refused exactly beside a live binding, unless the policy permits it. -/
theorem coexistenceConflict_canary {binding : AuthorityBinding} (hkind : binding.kind = .canary)
    (allowCoexistence : Bool) (bindings : List AuthorityBinding) :
    coexistenceConflict binding allowCoexistence bindings = none ↔
      allowCoexistence = true ∨ ∀ b ∈ bindings, b.live = false := by
  induction bindings with
  | nil => simp [coexistenceConflict]
  | cons current rest ih =>
    unfold coexistenceConflict
    by_cases hsuperseded : current.superseded = true
    · rw [if_pos hsuperseded, ih, List.forall_mem_cons]
      have hdead : current.live = false := by
        rw [AuthorityBinding.live, hsuperseded]
        rfl
      rw [and_iff_right hdead]
    · have hlive : current.live = true := by
        rw [AuthorityBinding.live, Bool.not_eq_true']
        simpa using hsuperseded
      have hnotAll : ¬∀ b ∈ current :: rest, b.live = false := by
        intro hall
        rw [hall current List.mem_cons_self] at hlive
        cases hlive
      rw [if_neg hsuperseded, if_neg (by simp [hkind])]
      cases allowCoexistence with
      | true =>
        rw [if_neg (by simp), ih]
        exact ⟨fun _ => Or.inl rfl, fun _ => Or.inl rfl⟩
      | false =>
        rw [if_pos (by simp [hkind])]
        constructor
        · intro hnone
          cases hnone
        · rintro (hpermitted | hdead)
          · cases hpermitted
          · exact absurd hdead hnotAll

/-! ## Grants after others -/

/-- Whether a grant is admitted once earlier grants have taken some scopes and places. -/
def GrantRequest.admittedAfter (g : GrantRequest) (s : EngineState) (taken : List ScopeId)
    (used : ℕ) : Bool :=
  g.model.valid && g.version.valid && (s.scopes.find g.scope).isSome &&
    (s.authority.listed g.scope || decide (g.scope ∈ taken) ||
      decide (s.authority.size + used < s.authority.maxBindings)) &&
    (g.supersedeExisting || s.policy.base.allowSplitTraffic ||
      !decide (g.scope ∈ taken) && (s.authority.liveBindingsFor g.scope).isEmpty)

/-- Whether grants over a list of scopes are all admitted, one after the other. -/
def EngineState.admitsOver (s : EngineState) (grant : ScopeId → GrantRequest) :
    List ScopeId → ℕ → List ScopeId → Bool
  | _, _, [] => true
  | taken, used, scope :: scopes =>
    (grant scope).admittedAfter s taken used &&
      s.admitsOver grant (scope :: taken) (used + (grant scope).places s) scopes

/-- The places the grants over a list of scopes take. -/
def EngineState.placesOver (s : EngineState) (grant : ScopeId → GrantRequest)
    (scopes : List ScopeId) : ℕ :=
  (scopes.map fun scope => (grant scope).places s).sum

/-- A state some grants of a version have led to: they took these scopes and places, and
left the plans, the policy and the other scopes alone. -/
structure Ahead (s : EngineState) (plans : OrdMap UInt64 RolloutPlan) (model : ModelId)
    (version : ModelVersionId) (taken : List ScopeId) (used : ℕ) (t : EngineState) : Prop where
  coherent : Coherent t
  standing : Standing t
  plans : t.rollouts = plans
  serves : t.mayServe model version = true
  policy : t.policy = s.policy
  registered : ∀ scope, (t.scopes.find scope).isSome = (s.scopes.find scope).isSome
  listed : ∀ scope, t.authority.listed scope = (s.authority.listed scope || decide (scope ∈ taken))
  size : t.authority.size = s.authority.size + used
  bound : t.authority.maxBindings = s.authority.maxBindings
  free : ∀ scope, scope ∉ taken →
    t.authority.bindingsFor scope = s.authority.bindingsFor scope
  held : ∀ scope ∈ taken, ∃ b ∈ t.authority.bindingsFor scope, b.live = true

variable {plans : OrdMap UInt64 RolloutPlan} {model : ModelId} {version : ModelVersionId}
  {taken : List ScopeId} {used : ℕ}

theorem Ahead.start (hs : Coherent s) (hstanding : Standing s)
    (hserves : s.mayServe model version = true) : Ahead s s.rollouts model version [] 0 s where
  coherent := hs
  standing := hstanding
  plans := rfl
  serves := hserves
  policy := rfl
  registered _ := rfl
  listed scope := by simp
  size := rfl
  bound := rfl
  free _ _ := rfl
  held scope hscope := by cases hscope

/-- A version that may serve still may after effects that retire nothing. -/
theorem Chain.mayServe (h : Chain c p s t) (hp : ¬p.retires)
    (hserves : s.mayServe model version = true) : t.mayServe model version = true := by
  obtain ⟨record, hrecord, hretired⟩ := mayServe_iff.mp hserves
  obtain ⟨stored, hstored, hkept⟩ := h.version_stands hp hrecord
  exact mayServe_iff.mpr ⟨stored, hstored, hkept.trans hretired⟩

/-- Effects that leave the table and the scopes alone keep a state where it is. -/
theorem Ahead.keep (h : Ahead s plans model version taken used t) (hchain : Chain c p t t')
    (hp : ¬p.retires) (hauthority : t'.authority = t.authority) (hscopes : t'.scopes = t.scopes) :
    Ahead s t'.rollouts model version taken used t' where
  coherent := hchain.coherent h.coherent
  standing := hchain.standing h.standing
  plans := rfl
  serves := hchain.mayServe hp h.serves
  policy := hchain.policy_epoch.1.trans h.policy
  registered scope := by
    rw [hscopes]
    exact h.registered scope
  listed scope := by
    rw [hauthority]
    exact h.listed scope
  size := by
    rw [hauthority]
    exact h.size
  bound := by
    rw [hauthority]
    exact h.bound
  free scope hscope := by
    rw [hauthority]
    exact h.free scope hscope
  held scope hscope := by
    rw [hauthority]
    exact h.held scope hscope

/-- Draining a taken scope keeps a state where it is. -/
theorem Ahead.drain (h : Ahead s plans model version taken used t) (drained : ModelId)
    (previous : ModelVersionId) {scope : ScopeId} (hscope : scope ∈ taken) :
    Ahead s plans model version taken used
      (t.mapAuthority (·.markDraining drained previous scope)) where
  coherent := (chain_markDraining (c := {}) (p := {}) t drained previous scope).coherent h.coherent
  standing := (chain_markDraining (c := {}) (p := {}) t drained previous scope).standing h.standing
  plans := h.plans
  serves := h.serves
  policy := h.policy
  registered := h.registered
  listed other := by
    rw [← h.listed other]
    exact listed_modify t.authority scope other (List.map (AuthorityTable.drain drained previous))
  size := by
    rw [← h.size]
    exact size_modify t.authority scope fun bindings => List.length_map _
  bound := h.bound
  free other hother := by
    have hne : other ≠ scope := fun heq => hother (heq ▸ hscope)
    rw [← h.free other hother]
    exact (bindingsFor_mapScope t.authority scope other _).trans (if_neg hne)
  held other hother := by
    obtain ⟨binding, hbinding, hlive⟩ := h.held other hother
    by_cases hother : other = scope
    · refine ⟨AuthorityTable.drain drained previous binding, ?_, ?_⟩
      · refine (bindingsFor_mapScope t.authority scope other _).symm ▸ ?_
        rw [if_pos hother]
        exact List.mem_map_of_mem hbinding
      · unfold AuthorityTable.drain
        split_ifs
        · exact hlive
        · exact hlive
    · refine ⟨binding, ?_, hlive⟩
      refine (bindingsFor_mapScope t.authority scope other _).symm ▸ ?_
      rw [if_neg hother]
      exact hbinding

/-- A grant moves exclusive authority or appends a canary. -/
def GrantRequest.forStage (g : GrantRequest) (model : ModelId) (version : ModelVersionId) : Prop :=
  g.model = model ∧ g.version = version ∧ (g.supersedeExisting = false → g.kind = .canary)

/-- What a grant finds after others is what it finds before them, less the places they
took. -/
theorem Ahead.admitted (h : Ahead s plans model version taken used t) {g : GrantRequest}
    (hg : g.forStage model version) : g.admitted t = g.admittedAfter s taken used := by
  obtain ⟨hmodel, hversion, hkind⟩ := hg
  have hserves : t.mayServe g.model g.version = true := by
    rw [hmodel, hversion]
    exact h.serves
  have hroom : t.authority.hasRoom g.scope = (s.authority.listed g.scope || decide (g.scope ∈ taken) ||
      decide (s.authority.size + used < s.authority.maxBindings)) := by
    rw [hasRoom, h.listed, h.size, h.bound]
  have hcoexists : g.coexists t = (g.supersedeExisting || s.policy.base.allowSplitTraffic ||
      !decide (g.scope ∈ taken) && (s.authority.liveBindingsFor g.scope).isEmpty) := by
    unfold GrantRequest.coexists
    rw [h.policy]
    cases hsupersede : g.supersedeExisting with
    | true => simp
    | false =>
      rw [Bool.false_or, Bool.false_or, Bool.eq_iff_iff, Option.isNone_iff_eq_none,
        coexistenceConflict_canary (hkind hsupersede), Bool.or_eq_true, Bool.and_eq_true]
      refine or_congr_right ?_
      by_cases htaken : g.scope ∈ taken
      · obtain ⟨binding, hbinding, hlive⟩ := h.held g.scope htaken
        rw [decide_eq_true htaken]
        constructor
        · intro hdead
          rw [hdead binding hbinding] at hlive
          cases hlive
        · rintro ⟨hfree, _⟩
          cases hfree
      · rw [h.free g.scope htaken, decide_eq_false htaken, liveBindingsFor, List.isEmpty_iff,
          List.filter_eq_nil_iff]
        simp
  rw [GrantRequest.admitted, GrantRequest.admittedAfter, hserves, Bool.true_and, h.registered, hroom,
    hcoexists]

/-- A grant leaves a live binding in its scope. -/
theorem Granted.holds {g : GrantRequest} (h : Granted s g t) :
    ∃ b ∈ t.authority.bindingsFor g.scope, b.live = true := by
  obtain ⟨record, scopeRecord, _, _, retained, _, _, htable⟩ := h.placed
  have hmem : ∀ (bindings : List AuthorityBinding) (table : AuthorityTable) (b : AuthorityBinding),
      b ∈ table.bindingsFor g.scope → b ∈ (bindings.foldl push table).bindingsFor g.scope := by
    intro bindings
    induction bindings with
    | nil => exact fun _ _ hb => hb
    | cons binding rest ih =>
      intro table b hb
      refine ih _ b ?_
      rw [bindingsFor_push]
      exact List.mem_append_left _ hb
  refine ⟨s.bumpSequence.grantedBinding g record scopeRecord.generation, ?_, rfl⟩
  rw [htable]
  refine hmem retained _ _ ?_
  rw [GrantRequest.placedTable, bindingsFor_push]
  refine List.mem_append_right _ ?_
  exact (if_pos rfl).symm ▸ List.mem_singleton_self _

/-- An admitted grant takes its scope and its places. -/
theorem Ahead.grant (h : Ahead s plans model version taken used t) {g : GrantRequest}
    (hnames : g.NamesStored t)
    (hfresh : g.supersedeExisting = true → g.scope ∉ taken) (hadmitted : g.admitted t = true) :
    Ahead s plans model version (g.scope :: taken) (used + g.places s) (t.grantAuthority g).1 := by
  obtain ⟨_, hgranted⟩ := grantAuthority_admitted h.coherent h.standing hadmitted
  have hchain := (grantAuthority_progresses (c := {}) (p := Permit.still fun _ => True) h.coherent g
    hnames fun _ _ => trivial).chain
  have hplaces : g.places t = g.places s := by
    have hdisplaces : g.displaces t = g.displaces s := by
      unfold GrantRequest.displaces
      split_ifs with hsupersede
      · rw [holderOf, holderOf, h.free g.scope (hfresh hsupersede)]
      · rfl
    rw [GrantRequest.places, GrantRequest.places, GrantRequest.retains, GrantRequest.retains,
      hdisplaces]
  constructor
  · exact hchain.coherent h.coherent
  · exact hchain.standing h.standing
  · exact (hchain.rollouts_eq fun _ hedits => hedits).trans h.plans
  · exact hchain.mayServe (fun hretires => hretires) h.serves
  · exact hchain.policy_epoch.1.trans h.policy
  · intro scope
    rw [hgranted.scopes, ScopeRegistry.find_touch, Option.isSome_map]
    exact h.registered scope
  · intro scope
    rw [hgranted.listed, h.listed, Bool.or_assoc]
    congr 1
    simp [Bool.or_comm]
  · rw [hgranted.size, h.size, hplaces]
    omega
  · rw [hgranted.maxBindings]
    exact h.bound
  · intro scope hscope
    rw [List.mem_cons, not_or] at hscope
    rw [hgranted.bindingsFor_of_ne hscope.1]
    exact h.free scope hscope.2
  · intro scope hscope
    by_cases hown : scope = g.scope
    · rw [hown]
      exact hgranted.holds
    · rw [hgranted.bindingsFor_of_ne hown]
      exact h.held scope ((List.mem_cons.mp hscope).resolve_left hown)

/-- The grants of a stage succeed exactly when each is admitted after those before it. -/
theorem grantOver_spec (grant : ScopeId → GrantRequest) (after : ScopeId → EngineState → EngineState)
    (hgrant : ∀ scope, (grant scope).scope = scope ∧ (grant scope).forStage model version)
    (hnames : ∀ scope t, t.rollouts = plans → (grant scope).NamesStored t)
    (hafter : ∀ scope taken used t, scope ∈ taken → Ahead s plans model version taken used t →
      Ahead s plans model version taken used (after scope t))
    {scopes : List ScopeId} (hnodup : scopes.Nodup)
    (hfresh : ∀ scope ∈ scopes, (grant scope).supersedeExisting = true → scope ∉ taken)
    (h : Ahead s plans model version taken used t) :
    (grantOver grant after scopes t).2.allowed = s.admitsOver grant taken used scopes ∧
      ((grantOver grant after scopes t).2.allowed = true →
        Ahead s plans model version (scopes.reverse ++ taken) (used + s.placesOver grant scopes)
          (grantOver grant after scopes t).1) := by
  induction scopes generalizing taken used t with
  | nil => exact ⟨rfl, fun _ => h⟩
  | cons scope scopes ih =>
    obtain ⟨hscope, hstage⟩ := hgrant scope
    obtain ⟨hnew, hrest⟩ := List.nodup_cons.mp hnodup
    have hallowed := grantAuthority_allowed h.coherent h.standing (grant scope)
    rw [h.admitted hstage] at hallowed
    unfold grantOver EngineState.admitsOver
    cases hadmitted : (grant scope).admittedAfter s taken used with
    | false =>
      rw [hadmitted] at hallowed
      dsimp only
      rw [hallowed, Bool.not_false, if_pos rfl, Bool.false_and]
      exact ⟨hallowed, fun hcontra => by rw [hallowed] at hcontra; cases hcontra⟩
    | true =>
      rw [hadmitted] at hallowed
      dsimp only
      rw [hallowed, Bool.not_true, if_neg Bool.false_ne_true, Bool.true_and]
      have hgranted := h.grant (hnames scope t h.plans)
        (fun hsupersede => by
          rw [hscope]
          exact hfresh scope List.mem_cons_self hsupersede)
        ((h.admitted hstage).trans hadmitted)
      rw [hscope] at hgranted
      have hnext := ih hrest (by
        intro other hother hsupersede htaken
        rcases List.mem_cons.mp htaken with rfl | htaken
        · exact hnew hother
        · exact hfresh other (List.mem_cons_of_mem _ hother) hsupersede htaken)
        (hafter scope _ _ _ List.mem_cons_self hgranted)
      rw [List.reverse_cons, List.append_assoc, List.singleton_append, EngineState.placesOver,
        List.map_cons, List.sum_cons, ← EngineState.placesOver, ← Nat.add_assoc]
      exact hnext

end LifecycleFabric
