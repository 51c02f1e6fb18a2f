import LifecycleFabric.Engine.GrantRuns
import LifecycleFabric.Engine.Plans

/-!
# Current versions

A version is made current by few operations, and current versions keep their exclusive
bindings through most. What an operation does to them is put together from what its parts
do: each part names the versions it moves and the bindings it withdraws.
-/

namespace LifecycleFabric

open EngineState AuthorityTable AuthorityBinding

variable {c : EngineConfig} {p : Permit} {s t u : EngineState} {model : ModelId}
  {version : ModelVersionId}

/-! ## What a change keeps -/

/-- A version is `CURRENT`. -/
def EngineState.IsCurrent (s : EngineState) (model : ModelId) (version : ModelVersionId) : Prop :=
  ∃ record, s.versionOf model version = some record ∧ record.state = .current

/-- A live exclusive binding of a version in the list of a scope. -/
structure EngineState.HeldBy (s : EngineState) (scope : ScopeId) (b : AuthorityBinding)
    (model : ModelId) (version : ModelVersionId) : Prop where
  stored : b ∈ s.authority.bindingsFor scope
  exclusive : b.isLiveExclusive = true
  own : b.ofVersion model version = true

/-- A version holds a scope exclusively. -/
def EngineState.HoldsExclusive (s : EngineState) (model : ModelId)
    (version : ModelVersionId) : Prop :=
  ∃ scope b, s.HeldBy scope b model version

/-- Every current version holds a live exclusive binding. -/
def CurrentsHold (s : EngineState) : Prop :=
  ∀ model version, s.IsCurrent model version → s.HoldsExclusive model version

/-- Of the versions a change does not move it makes none current, and those that stay
current keep every exclusive binding that it does not withdraw. -/
def KeepsCurrents (moved : ModelId → ModelVersionId → Prop)
    (withdrawn : ScopeId → AuthorityBinding → Prop) (s t : EngineState) : Prop :=
  ∀ model version, ¬moved model version → t.IsCurrent model version →
    s.IsCurrent model version ∧ ∀ scope b, s.HeldBy scope b model version →
      ¬withdrawn scope b → b ∈ t.authority.bindingsFor scope

/-- A change that moves no version and withdraws nothing from a current one. -/
abbrev LeavesCurrents : EngineState → EngineState → Prop :=
  KeepsCurrents (fun _ _ => False) fun _ _ => False

/-- The change of one version. -/
abbrev KeepsOthers (model : ModelId) (version : ModelVersionId) :
    EngineState → EngineState → Prop :=
  KeepsCurrents (fun m v => m = model ∧ v = version) fun _ _ => False

variable {moved moved' : ModelId → ModelVersionId → Prop}
  {withdrawn withdrawn' : ScopeId → AuthorityBinding → Prop}

theorem KeepsCurrents.trans (h : KeepsCurrents moved withdrawn s t)
    (h' : KeepsCurrents moved withdrawn t u) : KeepsCurrents moved withdrawn s u := by
  intro model version hmoved hcurrent
  obtain ⟨hmid, hlater⟩ := h' model version hmoved hcurrent
  obtain ⟨hbefore, hkept⟩ := h model version hmoved hmid
  refine ⟨hbefore, fun scope b hheld hstays => ?_⟩
  exact hlater scope b ⟨hkept scope b hheld hstays, hheld.exclusive, hheld.own⟩ hstays

theorem KeepsCurrents.mono (h : KeepsCurrents moved withdrawn s t)
    (hmoved : ∀ m v, moved m v → moved' m v)
    (hwithdrawn : ∀ scope b, withdrawn scope b → withdrawn' scope b) :
    KeepsCurrents moved' withdrawn' s t := by
  intro model version hother hcurrent
  obtain ⟨hbefore, hkept⟩ := h model version (fun hm => hother (hmoved _ _ hm)) hcurrent
  exact ⟨hbefore, fun scope b hheld hstays =>
    hkept scope b hheld fun hw => hstays (hwithdrawn _ _ hw)⟩

/-- What moves nothing may stand for what moves something. -/
theorem LeavesCurrents.keeps (h : LeavesCurrents s t) : KeepsCurrents moved withdrawn s t :=
  h.mono (fun _ _ hm => hm.elim) fun _ _ hw => hw.elim

/-- Current versions still hold a binding after a change, when each one it moves holds one
then, and each other one holds one that it does not withdraw. -/
theorem CurrentsHold.of_kept (h : KeepsCurrents moved withdrawn s t)
    (hmoved : ∀ m v, moved m v → t.IsCurrent m v → t.HoldsExclusive m v)
    (hothers : ∀ m v, ¬moved m v → s.IsCurrent m v →
      ∃ scope b, s.HeldBy scope b m v ∧ ¬withdrawn scope b) : CurrentsHold t := by
  intro model version hcurrent
  by_cases hmove : moved model version
  · exact hmoved model version hmove hcurrent
  · obtain ⟨hbefore, hkept⟩ := h model version hmove hcurrent
    obtain ⟨scope, b, hheld, hstays⟩ := hothers model version hmove hbefore
    exact ⟨scope, b, hkept scope b hheld hstays, hheld.exclusive, hheld.own⟩

theorem CurrentsHold.of_left (hs : CurrentsHold s) (h : LeavesCurrents s t) : CurrentsHold t := by
  refine CurrentsHold.of_kept h (fun _ _ hmove => hmove.elim) ?_
  intro model version _ hcurrent
  obtain ⟨scope, b, hheld⟩ := hs model version hcurrent
  exact ⟨scope, b, hheld, fun hwithdrawn => hwithdrawn⟩

/-- A version that is moved must hold a binding then. -/
theorem CurrentsHold.of_moved (hs : CurrentsHold s) (h : KeepsOthers model version s t)
    (hholds : t.HoldsExclusive model version) : CurrentsHold t := by
  refine CurrentsHold.of_kept h ?_ ?_
  · rintro _ _ ⟨rfl, rfl⟩ _
    exact hholds
  · intro other otherVersion _ hcurrent
    obtain ⟨scope, b, hheld⟩ := hs other otherVersion hcurrent
    exact ⟨scope, b, hheld, fun hwithdrawn => hwithdrawn⟩

/-- What moves one version and withdraws nothing may stand for what withdraws something. -/
theorem KeepsOthers.withdraws (h : KeepsOthers model version s t) :
    KeepsCurrents (fun m v => m = model ∧ v = version) withdrawn s t :=
  h.mono (fun _ _ hm => hm) fun _ _ hw => hw.elim

/-- A change that leaves the table alone, and in which every current record was current. -/
theorem leavesCurrents_of_versions (hauthority : t.authority = s.authority)
    (hversions : ∀ key after, t.versions.get? key = some after → after.state = .current →
      ∃ before, s.versions.get? key = some before ∧ before.state = .current) :
    LeavesCurrents s t := by
  rintro model version - ⟨after, hafter, hcurrent⟩
  refine ⟨hversions _ after hafter hcurrent, fun scope b hheld _ => ?_⟩
  rw [hauthority]
  exact hheld.stored

theorem leavesCurrents_of_frame (hversions : t.versions = s.versions)
    (hauthority : t.authority = s.authority) : LeavesCurrents s t :=
  leavesCurrents_of_versions hauthority fun _ after hafter hcurrent =>
    ⟨after, hversions ▸ hafter, hcurrent⟩

theorem LeavesCurrents.refl (s : EngineState) : LeavesCurrents s s :=
  leavesCurrents_of_frame rfl rfl

/-- A moved version that is not current after all was not moved. -/
theorem KeepsCurrents.of_not_current (h : KeepsCurrents moved withdrawn s t)
    (hmoved : ∀ m v, moved m v → moved' m v ∨ ¬t.IsCurrent m v) :
    KeepsCurrents moved' withdrawn s t := by
  intro model version hother hcurrent
  refine h model version (fun hm => ?_) hcurrent
  rcases hmoved model version hm with hm' | hnot
  · exact hother hm'
  · exact hnot hcurrent

/-! ## Versions -/

/-- An update of one version. -/
theorem keepsOthers_modifyVersion (s : EngineState) (model : ModelId) (version : ModelVersionId)
    (f : ModelVersionRecord → ModelVersionRecord) :
    KeepsOthers model version s (s.modifyVersion model version f) := by
  rintro model' version' hother ⟨record, hrecord, hcurrent⟩
  rw [versionOf_modifyVersion] at hrecord
  simp only [if_neg hother, Option.map_id'] at hrecord
  exact ⟨⟨record, hrecord, hcurrent⟩, fun scope b hheld _ => hheld.stored⟩

/-- An update of one record that makes none current. -/
theorem leavesCurrents_modifyVersions (s : EngineState) (key : VersionKey)
    {f : ModelVersionRecord → ModelVersionRecord}
    (hf : ∀ record, s.versions.get? key = some record → (f record).state = .current →
      record.state = .current) :
    LeavesCurrents s { s with versions := s.versions.modify key f } := by
  refine leavesCurrents_of_versions rfl fun key' after hafter hcurrent => ?_
  rw [OrdMap.get?_modify, Option.map_eq_some_iff] at hafter
  obtain ⟨before, hbefore, rfl⟩ := hafter
  refine ⟨before, hbefore, ?_⟩
  split_ifs at hcurrent with hkey
  · exact hf before (hkey ▸ hbefore) hcurrent
  · exact hcurrent

theorem leavesCurrents_modifyVersion (s : EngineState) (model : ModelId)
    (version : ModelVersionId) {f : ModelVersionRecord → ModelVersionRecord}
    (hf : ∀ record, (f record).state = .current → record.state = .current) :
    LeavesCurrents s (s.modifyVersion model version f) :=
  leavesCurrents_modifyVersions s _ fun record _ => hf record

/-- A version that is added is not current. -/
theorem leavesCurrents_insertVersion (s : EngineState) (key : VersionKey)
    {record : ModelVersionRecord} (hstate : record.state ≠ .current) :
    LeavesCurrents s { s with versions := s.versions.insertNew key record } := by
  refine leavesCurrents_of_versions rfl fun key' after hafter hcurrent => ?_
  rw [OrdMap.get?_insertNew] at hafter
  refine ⟨after, ?_, hcurrent⟩
  split_ifs at hafter with hkey
  · cases hstored : s.versions.get? key with
    | none =>
      rw [hstored, Option.getD_none] at hafter
      obtain rfl := Option.some.inj hafter
      exact absurd hcurrent hstate
    | some stored => rw [hkey, hstored, ← hafter, hstored, Option.getD_some]
  · exact hafter

private theorem current_reaches_table : ∀ target ∈ LifecycleState.all, target ≠ .registered →
    LifecycleState.current.reaches target = true := by
  decide +kernel

/-- An advance elsewhere leaves no record current: every state but the first has a legal
path from `CURRENT`. -/
theorem advance_not_current (record : ModelVersionRecord) {target : LifecycleState}
    (hne : target ≠ .current) (hlater : target ≠ .registered) :
    (record.advanceLifecycleTo target).1.state ≠ .current := by
  by_cases hcurrent : record.state = .current
  · have hreaches := current_reaches_table target (LifecycleState.mem_all _) hlater
    rw [← hcurrent] at hreaches
    rw [ModelVersionRecord.advanceLifecycleTo_state hreaches]
    exact hne
  · rcases ModelVersionRecord.advanceLifecycleTo_cases record target with
      ⟨_, hstate⟩ | ⟨_, hsame⟩
    · rw [hstate]
      exact hne
    · rw [hsame]
      exact hcurrent

/-- A version that was advanced elsewhere is not current. -/
theorem not_current_advanceVersion (s : EngineState) (model : ModelId)
    (version : ModelVersionId) {target : LifecycleState} (hne : target ≠ .current)
    (hlater : target ≠ .registered) :
    ¬(s.advanceVersion model version target).IsCurrent model version := by
  rintro ⟨record, hrecord, hcurrent⟩
  rw [advanceVersion, versionOf_modifyVersion, Option.map_eq_some_iff] at hrecord
  obtain ⟨before, _, rfl⟩ := hrecord
  rw [if_pos ⟨rfl, rfl⟩] at hcurrent
  exact advance_not_current before hne hlater hcurrent

/-- An advance elsewhere makes no version current. -/
theorem leavesCurrents_advanceVersion (s : EngineState) (model : ModelId)
    (version : ModelVersionId) {target : LifecycleState} (hne : target ≠ .current)
    (hlater : target ≠ .registered) : LeavesCurrents s (s.advanceVersion model version target) :=
  leavesCurrents_modifyVersion s model version fun record hcurrent =>
    absurd hcurrent (advance_not_current record hne hlater)

/-- A version that was moved out of `CURRENT` in the end was moved by no part of the
operation that counts. -/
theorem KeepsCurrents.then_advance {target : LifecycleState}
    (h : KeepsOthers model version s t) (hne : target ≠ .current)
    (hlater : target ≠ .registered) : LeavesCurrents s (t.advanceVersion model version target) := by
  have hadvanced := leavesCurrents_advanceVersion t model version hne hlater
  refine (h.trans (LeavesCurrents.keeps hadvanced)).of_not_current ?_
  rintro _ _ ⟨rfl, rfl⟩
  exact Or.inr (not_current_advanceVersion t _ _ hne hlater)

theorem leavesCurrents_stampVersion (s : EngineState) (model : ModelId)
    (version : ModelVersionId) : LeavesCurrents s (s.stampVersion model version) := by
  have hbump : LeavesCurrents s s.bumpSequence := leavesCurrents_of_frame rfl rfl
  exact hbump.trans (leavesCurrents_modifyVersion _ model version fun _ h => h)

/-! ## Bindings -/

/-- A rewriting of the table that leaves each exclusive binding it neither withdraws nor
takes from a moved version. -/
theorem keepsCurrents_of_table (hversions : t.versions = s.versions)
    (htable : ∀ scope b, b ∈ s.authority.bindingsFor scope → b.isLiveExclusive = true →
      ¬moved b.model b.version → ¬withdrawn scope b → b ∈ t.authority.bindingsFor scope) :
    KeepsCurrents moved withdrawn s t := by
  rintro model version hmoved ⟨record, hrecord, hcurrent⟩
  rw [versionOf, hversions] at hrecord
  refine ⟨⟨record, hrecord, hcurrent⟩, fun scope b hheld hstays => ?_⟩
  obtain ⟨rfl, rfl⟩ := ofVersion_iff.mp hheld.own
  exact htable scope b hheld.stored hheld.exclusive hmoved hstays

/-- Superseding a scope withdraws what is there. -/
theorem keepsCurrents_supersedeScope (s : EngineState) (scope : ScopeId) :
    KeepsCurrents moved (fun other _ => other = scope) s
      (s.mapAuthority (·.supersedeScope scope)) := by
  refine keepsCurrents_of_table rfl ?_
  intro other b hb _ _ hother
  rw [mapAuthority_authority, supersedeScope, bindingsFor_mapScope, if_neg hother]
  exact hb

/-- Draining withdraws from the drained version only. -/
theorem keepsOthers_markDraining (s : EngineState) (model : ModelId) (version : ModelVersionId)
    (scope : ScopeId) : KeepsOthers model version s
      (s.mapAuthority (·.markDraining model version scope)) := by
  refine keepsCurrents_of_table rfl ?_
  intro other b hb _ hmoved _
  rw [mapAuthority_authority, markDraining, bindingsFor_mapScope]
  split_ifs
  · refine List.mem_map.mpr ⟨b, hb, ?_⟩
    rw [drain, if_neg]
    rintro ⟨_, hown, _⟩
    exact hmoved (ofVersion_iff.mp hown)
  · exact hb

/-! ## Whose bindings a plan withdraws -/

/-- A binding that names a plan is one of its candidate. -/
def Owned (s : EngineState) : Prop :=
  ∀ scope, ∀ b ∈ s.authority.bindingsFor scope, b.rolloutGeneration.valid = true →
    ∃ plan, s.rollouts.get? b.rollout.raw = some plan ∧ plan.model = b.model ∧
      plan.candidate = b.version

/-- The plans of a state stand in another, with the same candidates. -/
def PlansStand (s t : EngineState) : Prop :=
  ∀ key plan, s.rollouts.get? key = some plan → ∃ plan', t.rollouts.get? key = some plan' ∧
    plan'.model = plan.model ∧ plan'.candidate = plan.candidate

theorem Owned.stand (h : Owned s) (hplans : PlansStand s t)
    (hauthority : t.authority = s.authority) : Owned t := by
  intro scope b hb hvalid
  rw [hauthority] at hb
  obtain ⟨plan, hplan, hmodel, hcandidate⟩ := h scope b hb hvalid
  obtain ⟨plan', hplan', hmodel', hcandidate'⟩ := hplans _ plan hplan
  exact ⟨plan', hplan', hmodel'.trans hmodel, hcandidate'.trans hcandidate⟩

theorem Owned.weaken (h : Owned s) (htable : s.authority.Weakened t.authority)
    (hplans : t.rollouts = s.rollouts) : Owned t := by
  intro scope b hb hvalid
  obtain ⟨origin, horigin, hweakens⟩ := htable.exists_before hb
  obtain ⟨_, hmodel, hversion, _, hrollout, hgeneration, _⟩ := hweakens.same
  rw [hgeneration] at hvalid
  obtain ⟨plan, hplan, hown⟩ := h scope origin horigin hvalid
  rw [hplans, hrollout, hmodel, hversion]
  exact ⟨plan, hplan, hown⟩

theorem Effect.owned (h : Effect c p s t) (hs : Owned s) : Owned t := by
  have hplans : PlansStand s t := by
    intro key plan hplan
    obtain ⟨plan', hplan', hstep⟩ := h.chain.plan_stands hplan
    exact ⟨plan', hplan', hstep.model, hstep.candidate⟩
  cases h with
  | weaken table htable => exact hs.weaken htable rfl
  | append mid binding hmid _ hbinding _ =>
    have hkept : Owned { s with authority := mid } := hs.weaken hmid rfl
    intro scope b hb hvalid
    rcases mem_bindingsFor_push.mp hb with hb | ⟨_, rfl⟩
    · exact hkept scope b hb hvalid
    · rcases hbinding.origin with ⟨_, hnamed⟩ |
        ⟨source, hsource, hmodel, hversion, _, hrollout, hgeneration⟩
      · obtain ⟨plan, hplan, _, hown⟩ := hnamed (Or.inr hvalid)
        exact ⟨plan, hplan, hown⟩
      · rw [← hgeneration] at hvalid
        rw [← hrollout, ← hmodel, ← hversion]
        exact hs _ source hsource hvalid
  | _ => exact hs.stand hplans rfl

theorem Chain.owned (h : Chain c p s t) (hs : Owned s) : Owned t :=
  Runs.chain_preserves (fun _ _ hab => hab.owned) h hs

/-- Withdrawing what a plan granted keeps the bindings of every version but its candidate. -/
theorem mem_of_withdrawn (hs : Owned s) (hkeys : Coherent s) {key : UInt64} {plan : RolloutPlan}
    (hplan : s.rollouts.get? key = some plan) (hgeneration : plan.generation.valid = true)
    {scope : ScopeId} {b : AuthorityBinding} (hb : b ∈ s.authority.bindingsFor scope)
    (hother : ¬(b.model = plan.model ∧ b.version = plan.candidate)) :
    b ∈ (s.authority.supersedeRollout plan.id plan.generation).bindingsFor scope := by
  rw [AuthorityTable.supersedeRollout, bindingsFor_mapAll]
  refine List.mem_map.mpr ⟨b, hb, if_neg ?_⟩
  rintro ⟨hrollout, hplanned⟩
  obtain ⟨owner, howner, hmodel, hcandidate⟩ := hs scope b hb (by rw [hplanned, hgeneration])
  rw [hrollout, hkeys.rollouts key plan hplan, hplan] at howner
  obtain rfl := Option.some.inj howner
  exact hother ⟨hmodel.symm, hcandidate.symm⟩

theorem keepsOthers_of_withdrawn (hs : Owned s) (hkeys : Coherent s) {key : UInt64}
    {plan : RolloutPlan} (hplan : s.rollouts.get? key = some plan)
    (hgeneration : plan.generation.valid = true) (hversions : t.versions = s.versions)
    (hauthority : t.authority = s.authority.supersedeRollout plan.id plan.generation) :
    KeepsOthers plan.model plan.candidate s t := by
  refine keepsCurrents_of_table hversions ?_
  intro scope b hb _ hmoved _
  rw [hauthority]
  exact mem_of_withdrawn hs hkeys hplan hgeneration hb hmoved

/-- A version that lost its bindings and is missing, retired or moved elsewhere is not
current. -/
theorem KeepsOthers.settled (h : KeepsOthers model version s t)
    (hsettled : ∀ record, t.versionOf model version = some record → record.state ≠ .current) :
    LeavesCurrents s t := by
  refine KeepsCurrents.of_not_current h ?_
  rintro _ _ ⟨rfl, rfl⟩
  right
  rintro ⟨record, hrecord, hcurrent⟩
  exact hsettled record hrecord hcurrent

theorem not_current_of_retired {record : ModelVersionRecord} (h : record.retired = true) :
    record.state ≠ .current := by
  intro hcurrent
  simp [ModelVersionRecord.retired, hcurrent] at h

/-! ## Grants -/

/-- Of a list only its first exclusive binding is superseded. -/
theorem mem_supersedeFirst_of_ne {bindings : List AuthorityBinding} {holder b : AuthorityBinding}
    (hfirst : bindings.find? isLiveExclusive = some holder) (hb : b ∈ bindings) (hne : b ≠ holder) :
    b ∈ supersedeFirstExclusive bindings := by
  induction bindings with
  | nil => cases hb
  | cons first rest ih =>
    unfold supersedeFirstExclusive
    cases hexclusive : first.isLiveExclusive with
    | true =>
      rw [List.find?_cons_of_pos hexclusive] at hfirst
      obtain rfl := Option.some.inj hfirst
      rw [if_pos rfl]
      exact List.mem_cons_of_mem _ ((List.mem_cons.mp hb).resolve_left hne)
    | false =>
      rw [List.find?_cons_of_neg (by simp [hexclusive])] at hfirst
      rw [if_neg Bool.false_ne_true]
      rcases List.mem_cons.mp hb with rfl | hb
      · exact List.mem_cons_self
      · exact List.mem_cons_of_mem _ (ih hfirst hb)

/-- A demoted version is not current. -/
theorem not_current_demoteDisplaced (s : EngineState) (model : ModelId)
    (version : ModelVersionId) : ¬(s.demoteDisplaced model version).IsCurrent model version := by
  unfold demoteDisplaced
  split_ifs
  · exact not_current_advanceVersion s model version (by decide) (by decide)
  · cases hrecord : s.versionOf model version with
    | none =>
      rintro ⟨record, hstored, _⟩
      rw [hrecord] at hstored
      cases hstored
    | some record =>
      dsimp only
      split_ifs with hcurrent
      · exact not_current_advanceVersion s model version (by decide) (by decide)
      · rintro ⟨stored, hstored, hstate⟩
        obtain rfl := Option.some.inj (hrecord.symm.trans hstored)
        exact hcurrent hstate

theorem leavesCurrents_demoteDisplaced (s : EngineState) (model : ModelId)
    (version : ModelVersionId) : LeavesCurrents s (s.demoteDisplaced model version) := by
  unfold demoteDisplaced
  split_ifs
  · exact leavesCurrents_advanceVersion s model version (by decide) (by decide)
  · split
    · split_ifs
      · exact leavesCurrents_advanceVersion s model version (by decide) (by decide)
      · exact LeavesCurrents.refl s
    · exact LeavesCurrents.refl s

/-- A version that lost its bindings and is demoted is not current. -/
theorem KeepsOthers.demoted (h : KeepsOthers model version s t) :
    LeavesCurrents s (t.demoteDisplaced model version) := by
  refine (h.trans (LeavesCurrents.keeps
    (leavesCurrents_demoteDisplaced t model version))).of_not_current ?_
  rintro _ _ ⟨rfl, rfl⟩
  exact Or.inr (not_current_demoteDisplaced t _ _)

/-- A binding that is appended takes nothing from anyone. -/
theorem leavesCurrents_push (s : EngineState) (b : AuthorityBinding) :
    LeavesCurrents s (s.mapAuthority (·.push b)) :=
  keepsCurrents_of_table rfl fun _ _ hb _ _ _ => mem_bindingsFor_push.mpr (Or.inl hb)

theorem placedState_vacant {g : GrantRequest} (hvacant : g.displaces s = none)
    (record : ModelVersionRecord) (scopeRecord : ScopeRecord) :
    LeavesCurrents s (g.placedState s record scopeRecord) := by
  refine keepsCurrents_of_table rfl ?_
  intro scope b hb _ _ _
  rw [GrantRequest.placedState, mapAuthority_authority, GrantRequest.placedTable]
  refine mem_bindingsFor_push.mpr (Or.inl ?_)
  unfold GrantRequest.displaces at hvacant
  split_ifs at hvacant ⊢
  · rw [withdrawExclusive_of_none hvacant]
    exact hb
  · exact hb

/-- A placed binding takes its scope from the version that held it only. -/
theorem placedState_displaced {g : GrantRequest} {holder : AuthorityBinding}
    (hholder : g.displaces s = some holder) (record : ModelVersionRecord)
    (scopeRecord : ScopeRecord) :
    KeepsOthers holder.model holder.version s (g.placedState s record scopeRecord) := by
  unfold GrantRequest.displaces at hholder
  split_ifs at hholder with hsupersede
  refine keepsCurrents_of_table rfl ?_
  intro scope b hb _ hmoved _
  rw [GrantRequest.placedState, mapAuthority_authority]
  by_cases hscope : scope = g.scope
  · rw [hscope] at hb ⊢
    rw [bindingsFor_placedTable g rfl, GrantRequest.keeps, if_pos hsupersede]
    refine List.mem_append_left _ (mem_supersedeFirst_of_ne hholder hb ?_)
    rintro rfl
    exact hmoved ⟨rfl, rfl⟩
  · rw [bindingsFor_placedTable_of_ne _ rfl hscope]
    exact hb

/-- A grant makes no version current, and demotes the one it displaces. -/
theorem leavesCurrents_grantAuthority (hs : Coherent s) (hstanding : Standing s)
    (g : GrantRequest) : LeavesCurrents s (s.grantAuthority g).1 := by
  cases hadmitted : g.admitted s with
  | false =>
    rcases (grantAuthority_refused hs hstanding hadmitted).2 with hsame | hbumped
    · rw [hsame]
      exact LeavesCurrents.refl s
    · rw [hbumped]
      exact leavesCurrents_of_frame rfl rfl
  | true =>
    cases hdisplaced : g.displaces s with
    | none =>
      obtain ⟨record, scopeRecord, _, _, hgrant⟩ :=
        grantAuthority_alone hs hstanding hadmitted hdisplaced
      rw [hgrant]
      exact (placedState_vacant hdisplaced record scopeRecord).trans
        (leavesCurrents_of_frame rfl rfl)
    | some holder =>
      obtain ⟨record, scopeRecord, previous, _, _, _, _, hgrant⟩ :=
        grantAuthority_displaced hs hstanding hadmitted hdisplaced
      have hplaced := placedState_displaced hdisplaced record scopeRecord
      rw [hgrant]
      refine KeepsCurrents.trans (KeepsOthers.demoted ?_) (leavesCurrents_of_frame rfl rfl)
      split_ifs
      · have hbump : LeavesCurrents (g.placedState s record scopeRecord)
            (g.placedState s record scopeRecord).bumpSequence := leavesCurrents_of_frame rfl rfl
        exact hplaced.trans (LeavesCurrents.keeps (hbump.trans (leavesCurrents_push _ _)))
      · exact hplaced

/-- A run of grants demotes what it displaces, as long as what follows each grant does. -/
theorem leavesCurrents_grantOver {grant : ScopeId → GrantRequest}
    {after : ScopeId → EngineState → EngineState} {scopes : List ScopeId}
    (hnames : ∀ scope t, t.rollouts = s.rollouts → (grant scope).NamesStored t)
    (hafter : ∀ scope t, Steady s t → Steady s (after scope t) ∧ LeavesCurrents t (after scope t))
    (ht : Steady s t) : LeavesCurrents t (grantOver grant after scopes t).1 := by
  refine (grantOver_preserves (P := fun u => Steady s u ∧ LeavesCurrents t u) ?_ ?_
    ⟨ht, LeavesCurrents.refl t⟩).2
  · rintro scope _ u ⟨hu, hleaves⟩ _
    exact ⟨hu.grant (hnames scope u hu.plans),
      hleaves.trans (leavesCurrents_grantAuthority hu.coherent hu.standing _)⟩
  · rintro scope _ u ⟨hu, hleaves⟩ _
    have hgranted := leavesCurrents_grantAuthority hu.coherent hu.standing (grant scope)
    obtain ⟨hsteady, hfollows⟩ := hafter scope _ (hu.grant (hnames scope u hu.plans))
    exact ⟨hsteady, (hleaves.trans hgranted).trans hfollows⟩

/-- What is drained after a grant is demoted. -/
theorem leavesCurrents_drainPrevious (plan : RolloutPlan) (stage : StageDefinition)
    (scope : ScopeId) (t : EngineState) : LeavesCurrents t (drainPrevious plan stage scope t) := by
  unfold drainPrevious
  dsimp only
  split_ifs
  · have hdrains := keepsOthers_markDraining t plan.model plan.previous scope
    split
    · rename_i hnone
      refine KeepsOthers.settled hdrains fun record hrecord => ?_
      rw [hnone] at hrecord
      cases hrecord
    · rename_i previous hprevious
      split_ifs with hretired
      · refine KeepsOthers.settled hdrains fun record hrecord => ?_
        obtain rfl := Option.some.inj (hprevious.symm.trans hrecord)
        exact not_current_of_retired hretired
      · exact hdrains.then_advance (by decide) (by decide)
  · exact LeavesCurrents.refl t

end LifecycleFabric
