import LifecycleFabric.Properties.Imports

/-!
# The answer to an authority query

The reference answer walks from a scope to the root; the first scope on the way that has
a live exclusive binding decides. The query agrees with it in every reachable state.
-/

namespace LifecycleFabric

open EngineState AuthorityTable

variable {c : EngineConfig} {s : EngineState}

/-- The scope has a live exclusive binding. -/
def HoldsExclusively (s : EngineState) (scope : ScopeId) (binding : AuthorityBinding) : Prop :=
  binding ∈ s.authority.liveBindingsFor scope ∧ binding.kind = .exclusive

/-- The reference answer for a registered scope. -/
inductive Answers (s : EngineState) : ScopeId → Option AuthorityBinding → Prop
  | held {scope : ScopeId} {record : ScopeRecord} {binding : AuthorityBinding}
      (hscope : s.scopes.find scope = some record) (hbinding : HoldsExclusively s scope binding) :
      Answers s scope (some binding)
  | inherited {scope : ScopeId} {record : ScopeRecord} {answer : Option AuthorityBinding}
      (hscope : s.scopes.find scope = some record)
      (hnone : ∀ binding, ¬HoldsExclusively s scope binding)
      (hparent : record.parent.valid = true) (hanswer : Answers s record.parent answer) :
      Answers s scope answer
  | nobody {scope : ScopeId} {record : ScopeRecord}
      (hscope : s.scopes.find scope = some record)
      (hnone : ∀ binding, ¬HoldsExclusively s scope binding)
      (hroot : record.parent.valid = false) : Answers s scope none

/-- The exclusive holder of a scope is the only one. -/
theorem holdsExclusively_unique (hs : SingleHolder s) {scope : ScopeId}
    {binding binding' : AuthorityBinding} (h : HoldsExclusively s scope binding)
    (h' : HoldsExclusively s scope binding') : binding = binding' := by
  have hmem : ∀ {b}, HoldsExclusively s scope b →
      b ∈ (s.authority.bindingsFor scope).filter AuthorityBinding.isLiveExclusive := by
    rintro b ⟨hb, hkind⟩
    obtain ⟨hb, hlive⟩ := mem_liveBindingsFor.mp hb
    rw [List.mem_filter]
    exact ⟨hb, by simp [AuthorityBinding.isLiveExclusive, hlive, hkind]⟩
  have hone := hs scope
  rw [exclusives, List.countP_eq_length_filter] at hone
  have hfirst := hmem h
  have hsecond := hmem h'
  generalize (s.authority.bindingsFor scope).filter AuthorityBinding.isLiveExclusive = holders
    at hone hfirst hsecond
  rcases holders with _ | ⟨holder, _ | ⟨other, rest⟩⟩
  · cases hfirst
  · rw [List.mem_singleton.mp hfirst, List.mem_singleton.mp hsecond]
  · rw [List.length_cons, List.length_cons] at hone
    omega

/-- The reference answer is unique. -/
theorem Answers.unique (hs : SingleHolder s) {scope : ScopeId}
    {answer answer' : Option AuthorityBinding} (h : Answers s scope answer)
    (h' : Answers s scope answer') : answer = answer' := by
  induction h with
  | held hscope hbinding =>
    cases h' with
    | held _ hbinding' => rw [holdsExclusively_unique hs hbinding hbinding']
    | inherited _ hnone => exact absurd hbinding (hnone _)
    | nobody _ hnone => exact absurd hbinding (hnone _)
  | inherited hscope hnone hparent _ ih =>
    cases h' with
    | held _ hbinding' => exact absurd hbinding' (hnone _)
    | inherited hscope' _ _ hanswer' =>
      rw [hscope] at hscope'
      obtain rfl := Option.some.inj hscope'
      exact ih hanswer'
    | nobody hscope' _ hroot' =>
      rw [hscope] at hscope'
      obtain rfl := Option.some.inj hscope'
      rw [hparent] at hroot'
      cases hroot'
  | nobody hscope hnone hroot =>
    cases h' with
    | held _ hbinding' => exact absurd hbinding' (hnone _)
    | inherited hscope' _ hparent' _ =>
      rw [hscope] at hscope'
      obtain rfl := Option.some.inj hscope'
      rw [hroot] at hparent'
      cases hparent'
    | nobody _ _ _ => rfl

/-- A query result reports an answer. -/
structure Reports (s : EngineState) (result : AuthorityQueryResult)
    (answer : Option AuthorityBinding) : Prop where
  outcome : result.outcome = if answer.isSome then .ok else .noAuthoritativeModel
  binding : result.binding = answer
  serving : ∀ binding, answer = some binding →
    ∃ record, s.versionOf binding.model binding.version = some record ∧ record.retired = false

/-- The exclusive bindings the walk sees at a scope. -/
theorem mem_exclusives_iff {scope : ScopeId} {binding : AuthorityBinding} :
    (binding ∈ (s.authority.liveBindingsFor scope).filter fun b => decide (b.kind = .exclusive)) ↔
      HoldsExclusively s scope binding := by
  rw [List.mem_filter, decide_eq_true_eq]
  rfl

theorem exclusives_length_le (hs : SingleHolder s) (scope : ScopeId) :
    ((s.authority.liveBindingsFor scope).filter fun b => decide (b.kind = .exclusive)).length ≤
      1 := by
  have hone := hs scope
  rw [exclusives, List.countP_eq_length_filter] at hone
  have hsame : (fun b : AuthorityBinding => decide (b.kind = .exclusive) && b.live) =
      AuthorityBinding.isLiveExclusive := by
    funext b
    rw [Bool.and_comm, AuthorityBinding.isLiveExclusive]
  rw [liveBindingsFor, List.filter_filter, hsame]
  exact hone

theorem visitScope_binding (node : ScopeId) (result : AuthorityQueryResult) :
    (s.visitScope node result).binding = result.binding := by
  unfold visitScope
  dsimp only
  split_ifs
  · rfl
  · rfl

/-- The walk over the scopes from a registered one to the root reports the reference
answer. The identities on the way decrease, which the induction follows. -/
theorem resolveAuthority_reports (hstanding : Standing s) (hsingle : SingleHolder s) (steps : ℕ)
    {scope : ScopeId} {record : ScopeRecord} (hscope : s.scopes.find scope = some record)
    (hsteps : scope.raw.toNat ≤ steps) {result : AuthorityQueryResult}
    (hresult : result.binding = none) :
    ∃ answer, Answers s scope answer ∧
      Reports s (s.resolveAuthority (s.scopes.chainUp steps (some record)) result) answer := by
  induction steps generalizing scope record result with
  | zero =>
    have hpos := Ident.valid_iff_pos.mp (ScopeRegistry.find_eq_some_iff.mp hscope).1
    omega
  | succ steps ih =>
    have hid := hstanding.tree.find_id hscope
    have hlength := exclusives_length_le hsingle scope
    have hvisited : (s.visitScope scope result).binding = none := by
      rw [visitScope_binding, hresult]
    have hchain : s.scopes.chainUp (steps + 1) (some record) =
        scope :: if record.parent.valid then s.scopes.chainUp steps (s.scopes.find record.parent)
          else [] := by
      rw [ScopeRegistry.chainUp, hid]
      cases record.parent.valid <;> rfl
    rw [hchain, resolveAuthority]
    dsimp only
    rw [if_neg (by omega)]
    cases hexclusives :
        (s.authority.liveBindingsFor scope).filter fun b => decide (b.kind = .exclusive) with
    | cons exclusive rest =>
      have hholds : HoldsExclusively s scope exclusive :=
        mem_exclusives_iff.mp (by rw [hexclusives]; exact List.mem_cons_self)
      obtain ⟨hmem, hlive⟩ := mem_liveBindingsFor.mp hholds.1
      obtain ⟨version, hversion, _, hretired⟩ := (hstanding.bindings scope exclusive hmem).served
      refine ⟨some exclusive, .held hscope hholds, ?_⟩
      dsimp only
      rw [hversion]
      dsimp only
      rw [hretired hlive, if_neg Bool.false_ne_true]
      refine ⟨rfl, rfl, ?_⟩
      intro binding hbinding
      obtain rfl := Option.some.inj hbinding
      exact ⟨version, hversion, hretired hlive⟩
    | nil =>
      have hnone : ∀ binding, ¬HoldsExclusively s scope binding := by
        intro binding hholds
        have hmem := mem_exclusives_iff.mpr hholds
        rw [hexclusives] at hmem
        cases hmem
      dsimp only
      cases hparent : record.parent.valid with
      | true =>
        obtain ⟨hlt, parent, hfound⟩ := hstanding.tree.find_parent hscope hparent
        obtain ⟨answer, hanswer, hreports⟩ :=
          ih hfound (by omega) hvisited
        rw [if_pos rfl, hfound]
        exact ⟨answer, .inherited hscope hnone hparent hanswer, hreports⟩
      | false =>
        refine ⟨none, .nobody hscope hnone hparent, ?_⟩
        rw [if_neg Bool.false_ne_true]
        refine ⟨rfl, hvisited, ?_⟩
        intro binding hbinding
        cases hbinding

theorem queryAuthority_reports (hstanding : Standing s) (hsingle : SingleHolder s)
    {scope : ScopeId} {record : ScopeRecord} (hscope : s.scopes.find scope = some record) :
    ∃ answer, Answers s scope answer ∧ Reports s (s.queryAuthority scope) answer := by
  unfold queryAuthority
  rw [hscope]
  dsimp only
  rw [ScopeRegistry.chain, List.reverse_reverse, hscope]
  exact resolveAuthority_reports hstanding hsingle _ hscope
    (ScopeRegistry.find_le_length hscope) rfl

/-- In every reachable state the query agrees with the reference answer: it answers with
the binding of the first scope of the walk that has an exclusive holder, reports no
authoritative model exactly when no scope of the walk has one, and is never ambiguous;
the version it answers with is not retired. -/
theorem query_agrees_with_reference (c : EngineConfig) (s : EngineState)
    (h : ReachableState c s) (scope : ScopeId) (hscope : (s.scopes.find scope).isSome = true) :
    (∀ binding, Answers s scope (some binding) ↔
        (s.queryAuthority scope).outcome = .ok ∧
          (s.queryAuthority scope).binding = some binding) ∧
      (Answers s scope none ↔ (s.queryAuthority scope).outcome = .noAuthoritativeModel) ∧
      (s.queryAuthority scope).outcome ≠ .ambiguous ∧
      ∀ binding, (s.queryAuthority scope).binding = some binding →
        ∃ record, s.versionOf binding.model binding.version = some record ∧
          record.retired = false := by
  obtain ⟨record, hrecord⟩ := Option.isSome_iff_exists.mp hscope
  have hsingle := h.singleHolder
  obtain ⟨answer, hanswer, hreports⟩ := queryAuthority_reports h.standing hsingle hrecord
  have honly : ∀ answer', Answers s scope answer' ↔ answer' = answer := by
    intro answer'
    constructor
    · exact fun h' => h'.unique hsingle hanswer
    · rintro rfl
      exact hanswer
  refine ⟨?_, ?_, ?_, ?_⟩
  · intro binding
    rw [honly, hreports.outcome, hreports.binding]
    constructor
    · rintro rfl
      exact ⟨rfl, rfl⟩
    · rintro ⟨_, hbinding⟩
      exact hbinding.symm
  · rw [honly, hreports.outcome]
    cases answer with
    | none => simp
    | some binding => simp
  · rw [hreports.outcome]
    split_ifs <;> decide
  · intro binding hbinding
    exact hreports.serving binding (hreports.binding.symm.trans hbinding)

/-- A version serves the root scope, under which a scope is registered. -/
def servedFromRoot : List Operation :=
  [.registerModel [109] [] .synthetic,
    .registerVersion
      { model := ⟨1⟩, label := [49]
        artifact := { setId := ⟨1⟩, generation := ⟨1⟩, digest := [97] } },
    .publishCompatibility ⟨1⟩ { key := [101] } .compatible [] .synthetic,
    .promote
      { model := ⟨1⟩, candidate := ⟨1⟩, scope := ⟨1⟩, environmentKey := [101]
        requestImmediateCutover := true },
    .registerScope (text "global/site:a")]

theorem query_agrees_with_reference_witness :
    ((runOps {} (init {}) servedFromRoot).queryAuthority ⟨2⟩).outcome ≠ .ambiguous ∧
      ((runOps {} (init {}) servedFromRoot).queryAuthority ⟨2⟩).outcome = .ok :=
  ⟨(query_agrees_with_reference {} (runOps {} (init {}) servedFromRoot) ⟨servedFromRoot, rfl⟩ ⟨2⟩
    (by decide +kernel)).2.2.1, by decide +kernel⟩

end LifecycleFabric
