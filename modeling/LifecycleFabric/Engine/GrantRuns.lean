import LifecycleFabric.Engine.Appended

/-!
# What a run of grants leaves of a list

The grants of a stage run over its scopes, and each touches the list of its own scope only.
A grant beside the others appends to that list; one that moves exclusive authority also
withdraws its holder.
-/

namespace LifecycleFabric

open EngineState AuthorityTable

variable {c : EngineConfig} {p : Permit} {s t t' : EngineState}

/-- A state in which the plans and the policy are what they were before a run of grants. -/
structure Steady (s t : EngineState) : Prop where
  coherent : Coherent t
  standing : Standing t
  plans : t.rollouts = s.rollouts
  policy : t.policy = s.policy

theorem Steady.refl (hs : Coherent s) (hstanding : Standing s) : Steady s s :=
  ⟨hs, hstanding, rfl, rfl⟩

theorem Steady.chain (h : Steady s t) (hchain : Chain c p t t') (hp : ∀ key, ¬p.edits key) :
    Steady s t' where
  coherent := hchain.coherent h.coherent
  standing := hchain.standing h.standing
  plans := (hchain.rollouts_eq hp).trans h.plans
  policy := hchain.policy_epoch.1.trans h.policy

theorem Steady.grant (h : Steady s t) {g : GrantRequest} (hnames : g.NamesStored t) :
    Steady s (t.grantAuthority g).1 :=
  h.chain (grantAuthority_progresses (c := {}) (p := Permit.still fun _ => True) h.coherent g hnames
    fun _ _ => trivial).chain fun _ hedits => hedits

/-- What one refused grant and one admitted grant with what follows it preserve, a run of
grants preserves. -/
theorem grantOver_preserves {P : EngineState → Prop} {grant : ScopeId → GrantRequest}
    {after : ScopeId → EngineState → EngineState} {scopes : List ScopeId}
    (hrefused : ∀ scope ∈ scopes, ∀ t, P t → (t.grantAuthority (grant scope)).2.allowed = false →
      P (t.grantAuthority (grant scope)).1)
    (hgranted : ∀ scope ∈ scopes, ∀ t, P t → (t.grantAuthority (grant scope)).2.allowed = true →
      P (after scope (t.grantAuthority (grant scope)).1)) (ht : P t) :
    P (grantOver grant after scopes t).1 := by
  induction scopes generalizing t with
  | nil => exact ht
  | cons scope scopes ih =>
    unfold grantOver
    cases hallowed : (t.grantAuthority (grant scope)).2.allowed with
    | false =>
      dsimp only
      rw [hallowed, Bool.not_false, if_pos rfl]
      exact hrefused scope List.mem_cons_self t ht hallowed
    | true =>
      dsimp only
      rw [hallowed, Bool.not_true, if_neg Bool.false_ne_true]
      exact ih (fun next hnext => hrefused next (List.mem_cons_of_mem _ hnext))
        (fun next hnext => hgranted next (List.mem_cons_of_mem _ hnext))
        (hgranted scope List.mem_cons_self t ht hallowed)

section Lists

variable {grant : ScopeId → GrantRequest} {after : ScopeId → EngineState → EngineState}
  {scopes : List ScopeId} (hscopes : ∀ scope, (grant scope).scope = scope)
  (hnames : ∀ scope t, t.rollouts = s.rollouts → (grant scope).NamesStored t)
  (hafter : ∀ scope t, Steady s t → Steady s (after scope t))

include hscopes hnames hafter

/-- A run of grants leaves the lists of all other scopes alone. -/
theorem grantOver_elsewhere (ht : Steady s t) {other : ScopeId} (hother : other ∉ scopes)
    (helsewhere : ∀ scope t, other ≠ scope →
      (after scope t).authority.bindingsFor other = t.authority.bindingsFor other) :
    (grantOver grant after scopes t).1.authority.bindingsFor other =
      t.authority.bindingsFor other := by
  have hgrant : ∀ scope ∈ scopes, ∀ u, Steady s u →
      (u.grantAuthority (grant scope)).1.authority.bindingsFor other =
        u.authority.bindingsFor other := by
    intro scope hscope u hu
    refine grantAuthority_elsewhere hu.coherent hu.standing (grant scope) ?_
    rw [hscopes]
    rintro rfl
    exact hother hscope
  refine (grantOver_preserves (P := fun u => Steady s u ∧ u.authority.bindingsFor other =
    t.authority.bindingsFor other) ?_ ?_ ⟨ht, rfl⟩).2
  · rintro scope hscope u ⟨hu, hlist⟩ _
    exact ⟨hu.grant (hnames scope u hu.plans), (hgrant scope hscope u hu).trans hlist⟩
  · rintro scope hscope u ⟨hu, hlist⟩ _
    refine ⟨hafter scope _ (hu.grant (hnames scope u hu.plans)), ?_⟩
    rw [helsewhere scope _ fun heq => hother (heq ▸ hscope)]
    exact (hgrant scope hscope u hu).trans hlist

/-- The list of a scope after a run of grants that succeeds is what the grant of that scope
and what follows it left. -/
theorem grantOver_at {P : EngineState → Prop}
    (hP : ∀ scope u, Steady s u → P u → P (after scope (u.grantAuthority (grant scope)).1))
    (helsewhere : ∀ scope other t, other ≠ scope →
      (after scope t).authority.bindingsFor other = t.authority.bindingsFor other)
    (hnodup : scopes.Nodup) {scope : ScopeId} (hscope : scope ∈ scopes) (ht : Steady s t)
    (hPt : P t) (hallowed : (grantOver grant after scopes t).2.allowed = true) :
    ∃ u, Steady s u ∧ P u ∧ u.authority.bindingsFor scope = t.authority.bindingsFor scope ∧
      (u.grantAuthority (grant scope)).2.allowed = true ∧
      (grantOver grant after scopes t).1.authority.bindingsFor scope =
        (after scope (u.grantAuthority (grant scope)).1).authority.bindingsFor scope := by
  induction scopes generalizing t with
  | nil => cases hscope
  | cons head scopes ih =>
    obtain ⟨hfresh, hnodup⟩ := List.nodup_cons.mp hnodup
    have hnext := hafter head _ (ht.grant (hnames head t ht.plans))
    cases hgranted : (t.grantAuthority (grant head)).2.allowed with
    | false =>
      rw [grantOver] at hallowed
      dsimp only at hallowed
      rw [hgranted, Bool.not_false, if_pos rfl] at hallowed
      exact absurd (hgranted.symm.trans hallowed) Bool.false_ne_true
    | true =>
      have hrun : grantOver grant after (head :: scopes) t =
          grantOver grant after scopes (after head (t.grantAuthority (grant head)).1) := by
        rw [grantOver]
        dsimp only
        rw [hgranted, Bool.not_true, if_neg Bool.false_ne_true]
      rw [hrun] at hallowed ⊢
      rcases List.mem_cons.mp hscope with rfl | htail
      · refine ⟨t, ht, hPt, rfl, hgranted, ?_⟩
        exact grantOver_elsewhere hscopes hnames hafter hnext hfresh
          fun other u hne => helsewhere other scope u hne
      · have hne : scope ≠ head := by
          rintro rfl
          exact hfresh htail
        obtain ⟨u, hu, hPu, hlist, hadmitted, hlast⟩ :=
          ih hnodup htail hnext (hP head t ht hPt) hallowed
        refine ⟨u, hu, hPu, ?_, hadmitted, hlast⟩
        rw [hlist, helsewhere head scope _ hne]
        exact grantAuthority_elsewhere ht.coherent ht.standing (grant head)
          (by rw [hscopes]; exact hne)

omit hafter in
/-- A run of grants beside the others only extends each list, by bindings of their kind. -/
theorem grantOver_extends {kind : AuthorityKind}
    (hbeside : ∀ scope, (grant scope).supersedeExisting = false ∧ (grant scope).kind = kind)
    (ht : Steady s t) (other : ScopeId) :
    ∃ rest, (grantOver grant (fun _ t => t) scopes t).1.authority.bindingsFor other =
        t.authority.bindingsFor other ++ rest ∧ ∀ b ∈ rest, b.kind = kind := by
  have hgrant : ∀ scope u, Steady s u → ∃ rest,
      (u.grantAuthority (grant scope)).1.authority.bindingsFor other =
        u.authority.bindingsFor other ++ rest ∧ ∀ b ∈ rest, b.kind = kind := by
    intro scope u hu
    by_cases hother : other = scope
    · subst hother
      obtain ⟨hsupersede, hkind⟩ := hbeside other
      cases hadmitted : (grant other).admitted u with
      | true =>
        have hnone : (grant other).retains u = false := by
          rw [GrantRequest.retains, GrantRequest.displaces, hsupersede, if_neg Bool.false_ne_true]
          rfl
        obtain ⟨record, scopeRecord, _, _, hlist⟩ :=
          (grantAuthority_admitted hu.coherent hu.standing hadmitted).2.bindingsFor_alone hnone
        rw [hscopes, GrantRequest.keeps, hsupersede, if_neg Bool.false_ne_true] at hlist
        refine ⟨_, hlist, ?_⟩
        intro b hb
        rw [List.mem_singleton.mp hb]
        simp [grantedBinding, hsupersede, hkind]
      | false =>
        refine ⟨[], ?_, List.forall_mem_nil _⟩
        rw [List.append_nil]
        rcases (grantAuthority_refused hu.coherent hu.standing hadmitted).2 with hsame | hbumped
        · rw [hsame]
        · rw [hbumped]
          rfl
    · refine ⟨[], ?_, List.forall_mem_nil _⟩
      rw [List.append_nil, grantAuthority_elsewhere hu.coherent hu.standing (grant scope)
        (by rw [hscopes]; exact hother)]
  have hkeeps : ∀ scope u, (Steady s u ∧ ∃ rest, u.authority.bindingsFor other =
        t.authority.bindingsFor other ++ rest ∧ ∀ b ∈ rest, b.kind = kind) →
      Steady s (u.grantAuthority (grant scope)).1 ∧ ∃ rest,
        (u.grantAuthority (grant scope)).1.authority.bindingsFor other =
          t.authority.bindingsFor other ++ rest ∧ ∀ b ∈ rest, b.kind = kind := by
    rintro scope u ⟨hu, rest, hlist, hrest⟩
    obtain ⟨more, hmore, hnone⟩ := hgrant scope u hu
    refine ⟨hu.grant (hnames scope u hu.plans), rest ++ more, ?_, ?_⟩
    · rw [hmore, hlist, List.append_assoc]
    · intro b hb
      rcases List.mem_append.mp hb with hb | hb
      · exact hrest b hb
      · exact hnone b hb
  exact (grantOver_preserves (P := fun u => Steady s u ∧ ∃ rest,
    u.authority.bindingsFor other = t.authority.bindingsFor other ++ rest ∧
      ∀ b ∈ rest, b.kind = kind)
    (fun scope _ u hu _ => hkeeps scope u hu) (fun scope _ u hu _ => hkeeps scope u hu)
    ⟨ht, [], (List.append_nil _).symm, List.forall_mem_nil _⟩).2

end Lists

end LifecycleFabric
