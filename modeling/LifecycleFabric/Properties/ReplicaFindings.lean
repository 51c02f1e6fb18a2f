import LifecycleFabric.Properties.Findings
import LifecycleFabric.Properties.Query
import LifecycleFabric.Properties.Revalidations

/-!
# Which replicas a reconciliation flags

A replica is flagged when the authority query answers another generation for its
scope. Canary and split-traffic bindings of the scope are not looked at, so a replica
of a generation that the engine itself put in canary is flagged too.
-/

namespace LifecycleFabric

open EngineState AuthorityTable

variable {c : EngineConfig} {s : EngineState} {input : ReconciliationInput}

/-- The binding is of the generation a replica serves. -/
def AuthorityBinding.coversReplica (binding : AuthorityBinding) (observed : ReplicaObservation) :
    Bool :=
  decide (binding.model = observed.model ∧ binding.version = observed.version ∧
    binding.modelGeneration = observed.modelGeneration)

/-- The observations are of one generation in one scope. -/
def ReplicaObservation.SamePlace (observed other : ReplicaObservation) : Prop :=
  other.scope = observed.scope ∧ other.model = observed.model ∧
    other.version = observed.version ∧ other.modelGeneration = observed.modelGeneration

/-- The reconciliation reports a replica as one without authority. -/
def Flagged (s : EngineState) (input : ReconciliationInput) (observed : ReplicaObservation) :
    Prop :=
  ∃ found ∈ s.reconcile input, found.kind = .replicaForNonAuthoritativeGeneration ∧
    found.scope = observed.scope ∧ found.model = observed.model ∧
    found.version = observed.version ∧ found.modelGeneration = observed.modelGeneration

/-- The generation of a replica serves its scope provisionally, in canary or a traffic split. -/
def ServesProvisionally (s : EngineState) (observed : ReplicaObservation) : Prop :=
  ∃ binding ∈ s.authority.liveBindingsFor observed.scope, binding.coversReplica observed = true ∧
    (binding.kind = .canary ∨ binding.kind = .splitTraffic)

/-- A replica is flagged only if its generation has no serving authority in the scope and the
authority query does not answer it. -/
def FlaggedRightly (s : EngineState) (input : ReconciliationInput) (observed : ReplicaObservation) :
    Prop :=
  Flagged s input observed →
    (∀ binding ∈ s.authority.liveBindingsFor observed.scope, binding.coversReplica observed = true →
      binding.kind ≠ .exclusive ∧ binding.kind ≠ .canary ∧ binding.kind ≠ .splitTraffic) ∧
    ∀ binding, (s.queryAuthority observed.scope).binding = some binding →
      binding.coversReplica observed = false

/-! ## The binding a replica is compared with -/

/-- The nearest exclusive binding is the reference answer. -/
theorem answers_findSome (hstanding : Standing s) (steps : ℕ) {scope : ScopeId}
    {record : ScopeRecord} (hscope : s.scopes.find scope = some record)
    (hsteps : scope.raw.toNat ≤ steps) :
    Answers s scope ((s.scopes.chainUp steps (some record)).findSome? fun node =>
      (s.authority.liveBindingsFor node).find? fun binding =>
        decide (binding.kind = .exclusive)) := by
  induction steps generalizing scope record with
  | zero =>
    have hpos := Ident.valid_iff_pos.mp (ScopeRegistry.find_eq_some_iff.mp hscope).1
    omega
  | succ steps ih =>
    have hid := hstanding.tree.find_id hscope
    have hchain : s.scopes.chainUp (steps + 1) (some record) =
        scope :: if record.parent.valid then s.scopes.chainUp steps (s.scopes.find record.parent)
          else [] := by
      rw [ScopeRegistry.chainUp, hid]
      cases record.parent.valid <;> rfl
    rw [hchain, List.findSome?_cons]
    cases hfound : (s.authority.liveBindingsFor scope).find? fun binding =>
        decide (binding.kind = .exclusive) with
    | some binding =>
      have hkind : binding.kind = .exclusive := by simpa using List.find?_some hfound
      exact .held hscope ⟨List.mem_of_find?_eq_some hfound, hkind⟩
    | none =>
      have hnone : ∀ binding, ¬HoldsExclusively s scope binding := by
        rintro binding ⟨hbinding, hkind⟩
        have hnot := List.find?_eq_none.mp hfound binding hbinding
        exact hnot (by simpa using hkind)
      cases hparent : record.parent.valid with
      | true =>
        obtain ⟨hlt, parent, hrecord⟩ := hstanding.tree.find_parent hscope hparent
        rw [if_pos rfl, hrecord]
        exact .inherited hscope hnone hparent (ih hrecord (by omega))
      | false =>
        rw [if_neg Bool.false_ne_true]
        exact .nobody hscope hnone hparent

theorem nearestExclusive_answers (hstanding : Standing s) {scope : ScopeId} {record : ScopeRecord}
    (hscope : s.scopes.find scope = some record) : Answers s scope (s.nearestExclusive scope) := by
  rw [nearestExclusive, ScopeRegistry.chain, List.reverse_reverse, hscope]
  exact answers_findSome hstanding _ hscope (ScopeRegistry.find_le_length hscope)

/-- A scope that is not registered has no nearest exclusive binding. -/
theorem find_of_nearestExclusive {scope : ScopeId} {binding : AuthorityBinding}
    (h : s.nearestExclusive scope = some binding) :
    ∃ record, s.scopes.find scope = some record := by
  cases hscope : s.scopes.find scope with
  | some record => exact ⟨record, rfl⟩
  | none =>
    have hempty : s.scopes.chainUp s.scopes.records.length none = [] := by
      cases s.scopes.records.length <;> rfl
    rw [nearestExclusive, ScopeRegistry.chain, hscope, hempty] at h
    cases h

/-- In every reachable state a replica is compared with the answer of the authority query. -/
theorem queryAuthority_eq_nearestExclusive (hs : ReachableState c s) (scope : ScopeId) :
    (s.queryAuthority scope).binding = s.nearestExclusive scope := by
  cases hscope : s.scopes.find scope with
  | none =>
    have hquery : (s.queryAuthority scope).binding = none := by rw [queryAuthority, hscope]
    rw [hquery]
    cases hnearest : s.nearestExclusive scope with
    | none => rfl
    | some binding =>
      obtain ⟨record, hrecord⟩ := find_of_nearestExclusive hnearest
      rw [hscope] at hrecord
      cases hrecord
  | some record =>
    obtain ⟨answer, hanswer, hreports⟩ :=
      queryAuthority_reports hs.standing hs.singleHolder hscope
    rw [hreports.binding]
    exact hanswer.unique hs.singleHolder (nearestExclusive_answers hs.standing hscope)

/-! ## When a replica is flagged -/

/-- A replica is flagged exactly when one of its generation is observed resident or ready in the
scope and the nearest exclusive binding is of another generation. -/
theorem flagged_iff {observed : ReplicaObservation} :
    Flagged s input observed ↔
      (∃ other ∈ input.replicas, observed.SamePlace other ∧
        (other.resident = true ∨ other.ready = true)) ∧
      ∃ binding, s.nearestExclusive observed.scope = some binding ∧
        binding.coversReplica observed = false := by
  constructor
  · rintro ⟨found, hfound, hkind, hscope, hmodel, hversion, hgeneration⟩
    rw [mem_reconcile, mem_replicaFindings hkind] at hfound
    obtain ⟨other, hother, hreported⟩ := List.mem_flatMap.mp hfound
    split_ifs at hreported with hidle
    · exact absurd hreported List.not_mem_nil
    · split at hreported
      · exact absurd hreported List.not_mem_nil
      · next binding hnearest =>
        split_ifs at hreported with hcovers
        · exact absurd hreported List.not_mem_nil
        · obtain rfl := List.mem_singleton.mp hreported
          have hplace : observed.SamePlace other := ⟨hscope, hmodel, hversion, hgeneration⟩
          have hbusy : other.resident = true ∨ other.ready = true := by
            rw [Bool.and_eq_true, Bool.not_eq_true', Bool.not_eq_true', not_and_or] at hidle
            simpa using hidle
          refine ⟨⟨other, hother, hplace, hbusy⟩, binding, hplace.1 ▸ hnearest, ?_⟩
          rw [AuthorityBinding.coversReplica, ← hplace.2.1, ← hplace.2.2.1, ← hplace.2.2.2]
          exact decide_eq_false hcovers
  · rintro ⟨⟨other, hother, hplace, hbusy⟩, binding, hnearest, hcovers⟩
    obtain ⟨hscope, hmodel, hversion, hgeneration⟩ := hplace
    have hidle : ¬ (!other.resident && !other.ready) = true := by
      rcases hbusy with h | h <;> simp [h]
    have hdiffers : ¬ (binding.model = other.model ∧ binding.version = other.version ∧
        binding.modelGeneration = other.modelGeneration) := by
      rw [hmodel, hversion, hgeneration]
      exact of_decide_eq_false hcovers
    have hreported : finding .replicaForNonAuthoritativeGeneration .externalStateDiverged
        other.scope other.model other.version other.modelGeneration
        (text ("a resident replica serves a generation that is not authoritative in its " ++
          "scope")) ∈ s.replicaFindings input := by
      refine List.mem_flatMap.mpr ⟨other, hother, ?_⟩
      rw [if_neg hidle, hscope, hnearest]
      dsimp only
      rw [if_neg hdiffers]
      exact List.mem_singleton_self _
    exact ⟨_, mem_reconcile.mpr ((mem_replicaFindings rfl).mpr hreported), rfl, hscope, hmodel,
      hversion, hgeneration⟩

/-- In every reachable state an observed replica is flagged only without authority exactly when,
if its generation serves the scope provisionally, no replica of it is observed resident or ready
there, or no exclusive holder of another generation answers for the scope. -/
theorem flagged_rightly_iff (hs : ReachableState c s) {observed : ReplicaObservation} :
    FlaggedRightly s input observed ↔
      (ServesProvisionally s observed →
        (∀ other ∈ input.replicas, observed.SamePlace other →
          other.resident = false ∧ other.ready = false) ∨
        ∀ binding, Answers s observed.scope (some binding) →
          binding.coversReplica observed = true) := by
  have hanswers : ∀ {binding}, s.nearestExclusive observed.scope = some binding →
      Answers s observed.scope (some binding) := by
    intro binding hnearest
    obtain ⟨record, hrecord⟩ := find_of_nearestExclusive hnearest
    exact hnearest ▸ nearestExclusive_answers hs.standing hrecord
  constructor
  · rintro hrightly ⟨partly, hpartly, hcovers, hkind⟩
    by_contra hnone
    rw [not_or] at hnone
    obtain ⟨hbusy, hanswered⟩ := hnone
    push Not at hbusy hanswered
    obtain ⟨other, hother, hplace, hready⟩ := hbusy
    obtain ⟨binding, hanswer, hdiffers⟩ := hanswered
    have hnearest : s.nearestExclusive observed.scope = some binding := by
      cases hanswer with
      | held hscope hbinding =>
        exact (nearestExclusive_answers hs.standing hscope).unique hs.singleHolder
          (.held hscope hbinding)
      | inherited hscope hnone hparent hrest =>
        exact (nearestExclusive_answers hs.standing hscope).unique hs.singleHolder
          (.inherited hscope hnone hparent hrest)
    have hseen : other.resident = true ∨ other.ready = true := by
      by_cases hresident : other.resident = true
      · exact Or.inl hresident
      · exact Or.inr (by simpa using hready (by simpa using hresident))
    have hflagged : Flagged s input observed :=
      flagged_iff.mpr ⟨⟨other, hother, hplace, hseen⟩, binding, hnearest, by simpa using hdiffers⟩
    obtain ⟨_, hcanary, hsplit⟩ := (hrightly hflagged).1 partly hpartly hcovers
    exact hkind.elim hcanary hsplit
  · intro hcondition hflagged
    obtain ⟨⟨other, hother, hplace, hbusy⟩, binding, hnearest, hdiffers⟩ := flagged_iff.mp hflagged
    have hanswer := hanswers hnearest
    have hnotProvisional : ¬ ServesProvisionally s observed := by
      intro hprovisional
      rcases hcondition hprovisional with hidle | hcovers
      · obtain ⟨hresident, hready⟩ := hidle other hother hplace
        rw [hresident, hready] at hbusy
        simp at hbusy
      · rw [hcovers binding hanswer] at hdiffers
        cases hdiffers
    refine ⟨fun held hheld hcovers => ⟨fun hexclusive => ?_, fun hcanary => ?_, fun hsplit => ?_⟩, ?_⟩
    · obtain ⟨record, hrecord⟩ := find_of_nearestExclusive hnearest
      have hsame : some held = some binding :=
        (Answers.held hrecord ⟨hheld, hexclusive⟩).unique hs.singleHolder hanswer
      obtain rfl := Option.some.inj hsame
      rw [hcovers] at hdiffers
      cases hdiffers
    · exact hnotProvisional ⟨held, hheld, hcovers, Or.inl hcanary⟩
    · exact hnotProvisional ⟨held, hheld, hcovers, Or.inr hsplit⟩
    · intro answer hquery
      rw [queryAuthority_eq_nearestExclusive hs, hnearest] at hquery
      obtain rfl := Option.some.inj hquery
      exact hdiffers

/-- A resident replica of a version in the root scope. -/
def residentReplica (version : ModelVersionId) : ReplicaObservation :=
  { model := ⟨1⟩, version, modelGeneration := ⟨1⟩, scope := ⟨1⟩, resident := true, ready := true }

/-- The replica of the version that holds the root alone is flagged rightly. -/
theorem flagged_rightly_holder :
    FlaggedRightly canaryBeside { replicas := [residentReplica ⟨1⟩] } (residentReplica ⟨1⟩) := by
  refine (flagged_rightly_iff (c := targetFree)
    ⟨versionRegistered ++ firstServes ++ secondInCanary, rfl⟩).mpr ?_
  rintro ⟨binding, hbinding, hcovers, hkind⟩
  have hnone : ∀ b ∈ canaryBeside.authority.liveBindingsFor ⟨1⟩,
      b.coversReplica (residentReplica ⟨1⟩) = true → b.kind ≠ .canary ∧ b.kind ≠ .splitTraffic := by
    decide +kernel
  obtain ⟨hcanary, hsplit⟩ := hnone binding hbinding hcovers
  exact absurd hkind (not_or.mpr ⟨hcanary, hsplit⟩)

/-- The replica of the version in canary is flagged. -/
theorem flagged_canary :
    ¬ ∀ (c : EngineConfig) (s : EngineState), ReachableState c s →
      ∀ (input : ReconciliationInput), ∀ observed ∈ input.replicas,
        FlaggedRightly s input observed := by
  intro hclaim
  have hrightly := hclaim targetFree canaryBeside
    ⟨versionRegistered ++ firstServes ++ secondInCanary, rfl⟩
    { replicas := [residentReplica ⟨2⟩] } (residentReplica ⟨2⟩) List.mem_cons_self
  have hflagged : ∃ found ∈ canaryBeside.reconcile { replicas := [residentReplica ⟨2⟩] },
      found.kind = .replicaForNonAuthoritativeGeneration ∧ found.scope = ⟨1⟩ ∧
        found.model = ⟨1⟩ ∧ found.version = ⟨2⟩ ∧ found.modelGeneration = ⟨1⟩ := by
    decide +kernel
  have hcanary : ∃ binding ∈ canaryBeside.authority.liveBindingsFor ⟨1⟩,
      binding.coversReplica (residentReplica ⟨2⟩) = true ∧ binding.kind = .canary := by
    decide +kernel
  obtain ⟨binding, hbinding, hcovers, hkind⟩ := hcanary
  exact ((hrightly hflagged).1 binding hbinding hcovers).2.1 hkind

end LifecycleFabric
