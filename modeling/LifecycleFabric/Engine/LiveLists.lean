import LifecycleFabric.AuthorityRoom
import LifecycleFabric.Engine.Frames

/-!
# What stays live

Withdrawing bindings filters the live list of each scope. The loops over rollout plans
withdraw what the plans they supersede granted. Only two operations touch the policy.
-/

namespace LifecycleFabric

open EngineState AuthorityTable

variable {c : EngineConfig} {s s' : EngineState}

/-! ## Withdrawals -/

/-- Whether a generation of a rollout plan granted a binding. -/
def AuthorityBinding.ofPlan (binding : AuthorityBinding) (plan : RolloutPlan) : Bool :=
  decide (binding.rollout = plan.id) && decide (binding.rolloutGeneration = plan.generation)

/-- The live bindings of a scope. -/
def EngineState.liveIn (s : EngineState) (scope : ScopeId) : List AuthorityBinding :=
  s.authority.liveBindingsFor scope

theorem filter_live_withdraw (withdrawn : AuthorityBinding → Prop) [DecidablePred withdrawn]
    (bindings : List AuthorityBinding) :
    (bindings.map fun b => if withdrawn b then b.supersede else b).filter AuthorityBinding.live =
      (bindings.filter AuthorityBinding.live).filter fun b => !decide (withdrawn b) := by
  induction bindings with
  | nil => rfl
  | cons b bindings ih =>
    rw [List.map_cons]
    by_cases hwithdrawn : withdrawn b
    · have hdead : b.supersede.live = false := rfl
      rw [if_pos hwithdrawn, List.filter_cons_of_neg (by simp [hdead]), ih]
      cases hlive : b.live with
      | false => rw [List.filter_cons_of_neg (by simp [hlive])]
      | true =>
        rw [List.filter_cons_of_pos (by simp [hlive]),
          List.filter_cons_of_neg (by simp [hwithdrawn])]
    · rw [if_neg hwithdrawn]
      cases hlive : b.live with
      | false =>
        rw [List.filter_cons_of_neg (by simp [hlive]), List.filter_cons_of_neg (by simp [hlive]),
          ih]
      | true =>
        rw [List.filter_cons_of_pos (by simp [hlive]), List.filter_cons_of_pos (by simp [hlive]),
          List.filter_cons_of_pos (by simp [hwithdrawn]), ih]

/-- Withdrawing a rollout supersedes what it granted, in its place. -/
theorem bindingsFor_supersedeRollout (table : AuthorityTable) (plan : RolloutPlan)
    (scope : ScopeId) :
    (table.supersedeRollout plan.id plan.generation).bindingsFor scope =
      (table.bindingsFor scope).map fun b => if b.ofPlan plan then b.supersede else b := by
  rw [AuthorityTable.supersedeRollout, bindingsFor_mapAll]
  refine List.map_congr_left fun b _ => ?_
  rw [AuthorityBinding.ofPlan, ← Bool.decide_and]
  simp only [decide_eq_true_eq]

/-- Withdrawing a rollout leaves live what it did not grant. -/
theorem liveIn_supersedeRollout (s : EngineState) (plan : RolloutPlan) (scope : ScopeId) :
    (s.mapAuthority (·.supersedeRollout plan.id plan.generation)).liveIn scope =
      (s.liveIn scope).filter fun b => !b.ofPlan plan := by
  rw [liveIn, mapAuthority_authority, liveBindingsFor, bindingsFor_supersedeRollout,
    filter_live_withdraw]
  refine List.filter_congr fun b _ => ?_
  rw [Bool.decide_eq_true]

/-- Withdrawing a version leaves live what is not its own. -/
theorem liveIn_supersedeVersion (s : EngineState) (model : ModelId) (version : ModelVersionId)
    (scope : ScopeId) :
    (s.mapAuthority (·.supersedeVersion model version)).liveIn scope =
      (s.liveIn scope).filter fun b => !b.ofVersion model version := by
  rw [liveIn, mapAuthority_authority, liveBindingsFor, supersedeVersion, bindingsFor_mapAll,
    filter_live_withdraw]
  refine List.filter_congr fun b _ => ?_
  rw [Bool.decide_eq_true]

/-- Nothing is withdrawn where nothing live was granted by the rollout. -/
theorem filter_not_of_free {withdrawn : AuthorityBinding → Bool} {bindings : List AuthorityBinding}
    (hfree : ∀ b ∈ bindings, withdrawn b = false) :
    bindings.filter (fun b => !withdrawn b) = bindings := by
  rw [List.filter_eq_self]
  intro b hb
  rw [hfree b hb]
  rfl

/-! ## Loops over the plans -/

/-- Whether one of the plans stored under some keys that are to be withdrawn granted a
binding. -/
def EngineState.grantedBy (s : EngineState) (withdrawn : RolloutPlan → Bool) (keys : List UInt64)
    (binding : AuthorityBinding) : Bool :=
  keys.any fun key => (s.rollouts.get? key).any fun plan => withdrawn plan && binding.ofPlan plan

theorem grantedBy_supersede (withdrawn : RolloutPlan → Bool) (keys : List UInt64)
    (binding : AuthorityBinding) :
    s.grantedBy withdrawn keys binding.supersede = s.grantedBy withdrawn keys binding := rfl

/-- A loop over keys that marks the stored plans it picks as superseded, each with an effect on
the authority table, and touches no other stored plan. -/
structure PlanLoop (loop : List UInt64 → EngineState → EngineState) (picked : RolloutPlan → Bool)
    (mark : Sequence → RolloutPlan → RolloutPlan)
    (effect : RolloutPlan → AuthorityTable → AuthorityTable) : Prop where
  nil : ∀ t, loop [] t = t
  skip : ∀ key keys t, (t.rollouts.get? key).any picked = false →
    loop (key :: keys) t = loop keys t
  take : ∀ key keys t plan, t.rollouts.get? key = some plan → picked plan = true →
    ∃ t' updated, loop (key :: keys) t = loop keys t' ∧ t'.authority = effect plan t.authority ∧
      t'.rollouts.get? key = some (mark updated plan) ∧
      ∀ other, other ≠ key → t'.rollouts.get? other = t.rollouts.get? other
  marked : ∀ updated plan, (mark updated plan).superseded = true

section Loops

variable {loop : List UInt64 → EngineState → EngineState} {picked : RolloutPlan → Bool}
  {mark : Sequence → RolloutPlan → RolloutPlan}
  {effect : RolloutPlan → AuthorityTable → AuthorityTable} {keys : List UInt64} {key : UInt64}

/-- A loop leaves the plans under other keys alone. -/
theorem PlanLoop.untouched (h : PlanLoop loop picked mark effect) (hkey : key ∉ keys)
    (s : EngineState) : (loop keys s).rollouts.get? key = s.rollouts.get? key := by
  induction keys generalizing s with
  | nil => rw [h.nil]
  | cons head keys ih =>
    rw [List.mem_cons, not_or] at hkey
    cases hpicked : (s.rollouts.get? head).any picked with
    | false => rw [h.skip head keys s hpicked, ih hkey.2]
    | true =>
      obtain ⟨plan, hplan, hpicks⟩ := (Option.any_eq_true _ _).mp hpicked
      obtain ⟨t, _, hloop, _, _, hothers⟩ := h.take head keys s plan hplan hpicks
      rw [hloop, ih hkey.2, hothers key hkey.1]

/-- A loop marks every plan it picks, and leaves the others alone. -/
theorem PlanLoop.plan (h : PlanLoop loop picked mark effect) (hnodup : keys.Nodup)
    (hmem : key ∈ keys) {plan : RolloutPlan} (hplan : s.rollouts.get? key = some plan) :
    ∃ updated, (loop keys s).rollouts.get? key =
      some (if picked plan then mark updated plan else plan) := by
  induction keys generalizing s with
  | nil => cases hmem
  | cons head keys ih =>
    obtain ⟨hfresh, hnodup⟩ := List.nodup_cons.mp hnodup
    by_cases hhead : key = head
    · subst hhead
      by_cases hpicks : picked plan = true
      · obtain ⟨t, updated, hloop, _, hafter, _⟩ := h.take key keys s plan hplan hpicks
        rw [hloop, h.untouched hfresh]
        exact ⟨updated, by rw [if_pos hpicks, hafter]⟩
      · have hskip : (s.rollouts.get? key).any picked = false := by
          rw [hplan, Option.any_some]
          exact Bool.not_eq_true _ ▸ hpicks
        rw [h.skip key keys s hskip, h.untouched hfresh]
        exact ⟨s.sequence, by rw [if_neg hpicks, hplan]⟩
    · have hrest : key ∈ keys := by
        rcases List.mem_cons.mp hmem with hcontra | hrest
        · exact absurd hcontra hhead
        · exact hrest
      cases hpicked : (s.rollouts.get? head).any picked with
      | false =>
        rw [h.skip head keys s hpicked]
        exact ih hnodup hrest hplan
      | true =>
        obtain ⟨other, hother, hothers⟩ := (Option.any_eq_true _ _).mp hpicked
        obtain ⟨t, _, hloop, _, _, hkept⟩ := h.take head keys s other hother hothers
        rw [hloop]
        exact ih hnodup hrest ((hkept key hhead).trans hplan)

/-- A loop supersedes every plan it picks. -/
theorem PlanLoop.superseded (h : PlanLoop loop picked mark effect) (hnodup : keys.Nodup)
    (hmem : key ∈ keys) {plan : RolloutPlan} (hplan : s.rollouts.get? key = some plan)
    (hpicks : picked plan = true) :
    ∃ after, (loop keys s).rollouts.get? key = some after ∧ after.superseded = true := by
  obtain ⟨updated, hafter⟩ := h.plan hnodup hmem hplan
  rw [if_pos hpicks] at hafter
  exact ⟨_, hafter, h.marked updated plan⟩

/-- A loop that withdraws what the plans it picks granted supersedes it in its place. -/
theorem PlanLoop.bindingsFor (h : PlanLoop loop picked mark fun plan table =>
      table.supersedeRollout plan.id plan.generation)
    (hnodup : keys.Nodup) (s : EngineState) (scope : ScopeId) :
    (loop keys s).authority.bindingsFor scope = (s.authority.bindingsFor scope).map fun b =>
      if s.grantedBy picked keys b then b.supersede else b := by
  induction keys generalizing s with
  | nil =>
    rw [h.nil]
    exact (List.map_id' _).symm
  | cons key keys ih =>
    obtain ⟨hkey, hnodup⟩ := List.nodup_cons.mp hnodup
    cases hpicked : (s.rollouts.get? key).any picked with
    | false =>
      rw [h.skip key keys s hpicked, ih hnodup]
      refine List.map_congr_left fun b _ => ?_
      have hnone : ((s.rollouts.get? key).any fun plan => picked plan && b.ofPlan plan) =
          false := by
        cases hplan : s.rollouts.get? key with
        | none => rfl
        | some plan =>
          rw [hplan, Option.any_some] at hpicked
          rw [Option.any_some, hpicked, Bool.false_and]
      rw [grantedBy, grantedBy, List.any_cons, hnone, Bool.false_or]
    | true =>
      obtain ⟨plan, hplan, hpicks⟩ := (Option.any_eq_true _ _).mp hpicked
      obtain ⟨t, _, hloop, htable, _, hothers⟩ := h.take key keys s plan hplan hpicks
      rw [hloop, ih hnodup t, htable, bindingsFor_supersedeRollout, List.map_map]
      refine List.map_congr_left fun b _ => ?_
      have hrest : t.grantedBy picked keys b = s.grantedBy picked keys b := by
        refine Bool.eq_iff_iff.mpr ?_
        rw [grantedBy, grantedBy, List.any_eq_true, List.any_eq_true]
        constructor
        · rintro ⟨other, hmem, hgranted⟩
          rw [hothers other fun heq => hkey (heq ▸ hmem)] at hgranted
          exact ⟨other, hmem, hgranted⟩
        · rintro ⟨other, hmem, hgranted⟩
          rw [← hothers other fun heq => hkey (heq ▸ hmem)] at hgranted
          exact ⟨other, hmem, hgranted⟩
      have hall : s.grantedBy picked (key :: keys) b =
          (b.ofPlan plan || s.grantedBy picked keys b) := by
        rw [grantedBy, grantedBy, List.any_cons, hplan, Option.any_some, hpicks, Bool.true_and]
      rw [hall, Function.comp_apply]
      -- Superseding twice is superseding once.
      cases hown : b.ofPlan plan with
      | true =>
        rw [if_pos rfl, grantedBy_supersede, hrest, Bool.true_or, if_pos rfl]
        split_ifs <;> rfl
      | false => rw [if_neg Bool.false_ne_true, hrest, Bool.false_or]

end Loops

/-- What a loop leaves live is what none of the plans it withdraws granted. -/
theorem liveIn_of_withdrawn {t : EngineState} {scope : ScopeId} {withdrawn : AuthorityBinding → Bool}
    (h : t.authority.bindingsFor scope = (s.authority.bindingsFor scope).map fun b =>
      if withdrawn b then b.supersede else b) :
    t.liveIn scope = (s.liveIn scope).filter fun b => !withdrawn b := by
  rw [liveIn, liveBindingsFor, h, filter_live_withdraw]
  refine List.filter_congr fun b _ => ?_
  rw [Bool.decide_eq_true]

theorem grantedBy_keys_iff {withdrawn : RolloutPlan → Bool} {binding : AuthorityBinding} :
    s.grantedBy withdrawn s.rollouts.keys binding = true ↔
      ∃ key plan, s.rollouts.get? key = some plan ∧ withdrawn plan = true ∧
        binding.ofPlan plan = true := by
  rw [grantedBy, List.any_eq_true]
  constructor
  · rintro ⟨key, _, hgranted⟩
    obtain ⟨plan, hplan, hboth⟩ := (Option.any_eq_true _ _).mp hgranted
    rw [Bool.and_eq_true] at hboth
    exact ⟨key, plan, hplan, hboth⟩
  · rintro ⟨key, plan, hplan, hwithdrawn, hown⟩
    refine ⟨key, OrdMap.mem_keys_iff.mpr ⟨plan, hplan⟩, ?_⟩
    rw [hplan, Option.any_some, hwithdrawn, hown]
    rfl

/-- The live plans of the other candidates of a model. -/
def RolloutPlan.inflightBeside (record : ModelVersionRecord) (plan : RolloutPlan) : Bool :=
  plan.live && decide (plan.model = record.model) && decide (plan.candidate ≠ record.version)

/-- The live plans of a candidate. -/
def RolloutPlan.liveFor (candidate : ModelVersionId) (plan : RolloutPlan) : Bool :=
  decide (plan.candidate = candidate) && plan.live

theorem planLoop_supersedeInflight (record : ModelVersionRecord) :
    PlanLoop (supersedeInflight record) (RolloutPlan.inflightBeside record)
      (fun updated =>
        supersededPlan updated (text "a newer promotion superseded this rollout"))
      fun plan table => table.supersedeRollout plan.id plan.generation where
  marked _ _ := rfl
  nil _ := rfl
  skip key keys t hskip := by
    rw [supersedeInflight]
    cases hplan : t.rollouts.get? key with
    | none => rfl
    | some plan =>
      rw [hplan, Option.any_some] at hskip
      dsimp only
      rw [if_pos]
      by_contra hinflight
      push Not at hinflight
      obtain ⟨hlive, hmodel, hother⟩ := hinflight
      simp [RolloutPlan.inflightBeside, hlive, hmodel, hother] at hskip
  take key keys t plan hplan hinflight := by
    simp only [RolloutPlan.inflightBeside, Bool.and_eq_true, decide_eq_true_eq] at hinflight
    obtain ⟨⟨hlive, hmodel⟩, hother⟩ := hinflight
    rw [supersedeInflight, hplan]
    dsimp only
    rw [if_neg (by simp [hlive, hmodel, hother])]
    have hself : (t.rollouts.modify key (supersededPlan t.bumpSequence.sequence
        (text "a newer promotion superseded this rollout"))).get? key =
          some (supersededPlan t.bumpSequence.sequence
            (text "a newer promotion superseded this rollout") plan) := by
      rw [OrdMap.get?_modify_self, hplan]
      rfl
    refine ⟨_, t.bumpSequence.sequence, rfl, ?_, ?_, ?_⟩
    · split
      · rfl
      · split_ifs
        · rfl
        · rfl
    · split
      · exact hself
      · split_ifs
        · exact hself
        · exact hself
    · intro other hne
      split
      · exact OrdMap.get?_modify_of_ne _ _ hne
      · split_ifs
        · exact OrdMap.get?_modify_of_ne _ _ hne
        · exact OrdMap.get?_modify_of_ne _ _ hne

theorem planLoop_supersedeRevisedPlans (candidate : ModelVersionId) :
    PlanLoop (supersedeRevisedPlans candidate) (RolloutPlan.liveFor candidate) revisedPlan
      fun plan table => table.supersedeRollout plan.id plan.generation where
  marked _ _ := rfl
  nil _ := rfl
  skip key keys t hskip := by
    rw [supersedeRevisedPlans]
    cases hplan : t.rollouts.get? key with
    | none => rfl
    | some plan =>
      rw [hplan, Option.any_some] at hskip
      dsimp only
      rw [if_pos]
      by_contra hpicked
      push Not at hpicked
      obtain ⟨hcandidate, hlive⟩ := hpicked
      simp [RolloutPlan.liveFor, hlive, hcandidate] at hskip
  take key keys t plan hplan hpicked := by
    simp only [RolloutPlan.liveFor, Bool.and_eq_true, decide_eq_true_eq] at hpicked
    obtain ⟨hcandidate, hlive⟩ := hpicked
    rw [supersedeRevisedPlans, hplan]
    dsimp only
    rw [if_neg (by simp [hlive, hcandidate])]
    refine ⟨_, t.bumpSequence.sequence, rfl, rfl, ?_, ?_⟩
    · refine (OrdMap.get?_modify_self _ _ _).trans ?_
      rw [bumpSequence_rollouts, hplan]
      rfl
    · intro other hne
      exact OrdMap.get?_modify_of_ne _ _ hne

theorem liveIn_supersedeInflight (record : ModelVersionRecord) {keys : List UInt64}
    (hnodup : keys.Nodup) (s : EngineState) (scope : ScopeId) :
    (supersedeInflight record keys s).liveIn scope = (s.liveIn scope).filter fun b =>
      !s.grantedBy (RolloutPlan.inflightBeside record) keys b :=
  liveIn_of_withdrawn ((planLoop_supersedeInflight record).bindingsFor hnodup s scope)

theorem liveIn_supersedeRevisedPlans (candidate : ModelVersionId) {keys : List UInt64}
    (hnodup : keys.Nodup) (s : EngineState) (scope : ScopeId) :
    (supersedeRevisedPlans candidate keys s).liveIn scope = (s.liveIn scope).filter fun b =>
      !s.grantedBy (RolloutPlan.liveFor candidate) keys b :=
  liveIn_of_withdrawn ((planLoop_supersedeRevisedPlans candidate).bindingsFor hnodup s scope)

/-! ## The policy -/

/-- Every other operation but an import keeps the policy. -/
theorem step_policy (hs : Coherent s) {op : Operation} (hsets : op.setsPolicy = false)
    (himport : op.isImport = false) : (step c s op).policy = s.policy :=
  (step_framed hs op).policy hsets himport

end LifecycleFabric
