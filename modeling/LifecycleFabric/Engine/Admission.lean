import LifecycleFabric.Engine.Standing

/-!
# When a grant is admitted

In a reachable state the grant routine admits a version exactly when the version is
stored, not retired and has a valid identity, the scope is registered and has room, and
the live bindings of the scope permit it. A retained binding is never refused: the scope
it goes to has just received one.
-/

namespace LifecycleFabric

open EngineState AuthorityTable

variable {c : EngineConfig} {s s' : EngineState}

/-- The binding that holds a scope exclusively: the first one in grant order. -/
def EngineState.holderOf (s : EngineState) (scope : ScopeId) : Option AuthorityBinding :=
  (s.authority.bindingsFor scope).find? AuthorityBinding.isLiveExclusive

/-- Whether a version is stored and not retired. -/
def EngineState.mayServe (s : EngineState) (model : ModelId) (version : ModelVersionId) : Bool :=
  match s.versionOf model version with
  | none => false
  | some record => !record.retired

/-- The binding a grant displaces. -/
def GrantRequest.displaces (g : GrantRequest) (s : EngineState) : Option AuthorityBinding :=
  if g.supersedeExisting then s.holderOf g.scope else none

/-- Whether a grant retains the binding it displaces. -/
def GrantRequest.retains (g : GrantRequest) (s : EngineState) : Bool :=
  (g.displaces s).any (isRetentionTarget g)

/-- Whether the live bindings of the scope permit a grant. -/
def GrantRequest.coexists (g : GrantRequest) (s : EngineState) : Bool :=
  g.supersedeExisting ||
    (coexistenceConflict { kind := g.kind } s.policy.base.allowSplitTraffic
      (s.authority.bindingsFor g.scope)).isNone

/-- Whether a grant is admitted. -/
def GrantRequest.admitted (g : GrantRequest) (s : EngineState) : Bool :=
  s.mayServe g.model g.version && g.model.valid && g.version.valid &&
    (s.scopes.find g.scope).isSome && s.authority.hasRoom g.scope && g.coexists s

/-- The table once a grant has put its binding there. -/
def GrantRequest.placedTable (g : GrantRequest) (s : EngineState) (binding : AuthorityBinding) :
    AuthorityTable :=
  (if g.supersedeExisting then s.authority.withdrawExclusive g.scope else s.authority).push binding

theorem mayServe_iff {model : ModelId} {version : ModelVersionId} :
    s.mayServe model version = true ↔
      ∃ record, s.versionOf model version = some record ∧ record.retired = false := by
  unfold mayServe
  cases s.versionOf model version with
  | none => simp
  | some record => simp

theorem GrantRequest.admitted_iff {g : GrantRequest} :
    g.admitted s = true ↔ s.mayServe g.model g.version = true ∧ g.model.valid = true ∧
      g.version.valid = true ∧ (s.scopes.find g.scope).isSome = true ∧
      s.authority.hasRoom g.scope = true ∧ g.coexists s = true := by
  simp only [GrantRequest.admitted, Bool.and_eq_true, and_assoc]

/-! ## The granted binding -/

/-- The binding a grant appends is well formed when it names its version by valid
identities. -/
theorem malformed_grantedBinding (hs : Coherent s) (hstanding : Standing s) {g : GrantRequest}
    {record : ModelVersionRecord} {scopeRecord : ScopeRecord}
    (hrecord : s.versionOf g.model g.version = some record)
    (hscope : s.scopes.find g.scope = some scopeRecord) :
    malformed (s.bumpSequence.grantedBinding g record scopeRecord.generation) = none ↔
      g.model.valid = true ∧ g.version.valid = true := by
  obtain ⟨hmodel, hversion⟩ := versionKey_inj.mp (hs.versions _ record hrecord)
  have hvalid := (ScopeRegistry.find_eq_some_iff.mp hscope).1
  have hgeneration := hstanding.generations _ record hrecord
  have hscopeGeneration := hstanding.tree.generation _ scopeRecord
    (ScopeRegistry.find_eq_some_iff.mp hscope).2
  rw [malformed_eq_none_iff]
  simp only [grantedBinding, ← hmodel, ← hversion, hvalid, hgeneration, hscopeGeneration]
  tauto

/-- Only the kind of a binding decides what it may coexist with. -/
theorem coexistenceConflict_kind (binding : AuthorityBinding) {binding' : AuthorityBinding}
    (hkind : binding'.kind = binding.kind) (allowCoexistence : Bool)
    (bindings : List AuthorityBinding) :
    coexistenceConflict binding' allowCoexistence bindings =
      coexistenceConflict binding allowCoexistence bindings := by
  induction bindings with
  | nil => rfl
  | cons current rest ih => simp only [coexistenceConflict, hkind, ih]

theorem placeBinding_allowed_iff {g : GrantRequest} (binding : AuthorityBinding)
    (hkind : binding.kind = if g.supersedeExisting then .exclusive else g.kind)
    (hscope : binding.scope = g.scope) :
    (s.placeBinding g binding).2.1.allowed = true ↔
      malformed binding = none ∧ s.authority.hasRoom g.scope = true ∧ g.coexists s = true := by
  unfold placeBinding GrantRequest.coexists
  cases hsupersede : g.supersedeExisting with
  | true =>
    rw [hsupersede, if_pos rfl] at hkind
    rw [if_pos rfl, replaceExclusive_allowed_iff hkind, hscope]
    simp
  | false =>
    rw [hsupersede, if_neg Bool.false_ne_true] at hkind
    rw [if_neg Bool.false_ne_true]
    dsimp only
    rw [grant_allowed_iff, PolicySet.effective_allowSplitTraffic, hscope,
      coexistenceConflict_kind { kind := g.kind } hkind, Bool.false_or,
      Option.isNone_iff_eq_none]

/-- An admitted binding is placed, and the binding it displaces is handed back. -/
theorem placeBinding_of_allowed {g : GrantRequest} {binding : AuthorityBinding}
    (hkind : binding.kind = if g.supersedeExisting then .exclusive else g.kind)
    (hscope : binding.scope = g.scope)
    (hallowed : (s.placeBinding g binding).2.1.allowed = true) :
    s.placeBinding g binding = (g.placedTable s binding, .accepted,
      (g.displaces s).map AuthorityBinding.supersede) := by
  have hsplit := (placeBinding_allowed_iff binding hkind hscope).mp hallowed
  unfold placeBinding at hallowed ⊢
  unfold GrantRequest.placedTable GrantRequest.displaces
  cases hsupersede : g.supersedeExisting with
  | true =>
    rw [hsupersede, if_pos rfl] at hkind
    rw [← hscope] at hsplit ⊢
    rw [if_pos rfl, if_pos rfl, if_pos rfl, replaceExclusive_of_room hkind hsplit.1 hsplit.2.1,
      holderOf]
  | false =>
    rw [hsupersede, if_neg Bool.false_ne_true] at hallowed
    rw [if_neg Bool.false_ne_true, if_neg Bool.false_ne_true, if_neg Bool.false_ne_true]
    dsimp only at hallowed ⊢
    rw [grant_of_allowed hallowed]
    rfl

/-! ## Retaining the displaced binding -/

theorem demoteDisplaced_kept (s : EngineState) (model : ModelId) (version : ModelVersionId) :
    (s.demoteDisplaced model version).authority = s.authority ∧
      (s.demoteDisplaced model version).scopes = s.scopes := by
  unfold demoteDisplaced
  split_ifs
  · exact ⟨rfl, rfl⟩
  · split
    · split_ifs
      · exact ⟨rfl, rfl⟩
      · exact ⟨rfl, rfl⟩
    · exact ⟨rfl, rfl⟩

/-- Settling a well-formed binding of a version that may serve is never refused in a scope
that has room: the version is retained, if the caller named it, and demoted. -/
theorem settleDisplaced_eq {g : GrantRequest} (scopeGeneration : ScopeGeneration)
    (displaced : AuthorityBinding) {previous : ModelVersionRecord}
    (hsound : malformed displaced = none)
    (hprevious : s.versionOf displaced.model displaced.version = some previous)
    (hretired : previous.retired = false) (hscope : g.scope.valid = true)
    (hgeneration : scopeGeneration.valid = true) (hroom : s.authority.hasRoom g.scope = true) :
    s.settleDisplaced g scopeGeneration displaced =
      ((if isRetentionTarget g displaced then
          s.bumpSequence.mapAuthority (·.push
            (s.bumpSequence.retentionBinding scopeGeneration displaced previous g.scope))
        else s).demoteDisplaced displaced.model displaced.version, .accepted) := by
  unfold settleDisplaced
  rw [hprevious]
  dsimp only
  rw [hretired, if_neg Bool.false_ne_true]
  by_cases htarget : isRetentionTarget g displaced = true
  · obtain ⟨_, hversion, hmodel, hmodelGeneration, _⟩ := malformed_eq_none_iff.mp hsound
    have hgranted : (s.bumpSequence.authority.grant (s.bumpSequence.retentionBinding
        scopeGeneration displaced previous g.scope) true).2.allowed = true := by
      refine (grant_allowed_iff _ _ _).mpr ⟨?_, hroom, coexistenceConflict_retained rfl _ _⟩
      exact malformed_eq_none_iff.mpr ⟨hscope, hversion, hmodel, hmodelGeneration, hgeneration⟩
    rw [if_pos htarget, if_pos htarget, grant_of_allowed hgranted]
    dsimp only
    rw [Decision.allowed_accepted, Bool.not_true, if_neg Bool.false_ne_true]
    rfl
  · rw [if_neg htarget, if_neg htarget]

/-! ## The grant routine -/

/-- What an admitted grant leaves of the table and the scopes. -/
structure Granted (s : EngineState) (g : GrantRequest) (s' : EngineState) : Prop where
  placed : ∃ record scopeRecord, s.versionOf g.model g.version = some record ∧
    s.scopes.find g.scope = some scopeRecord ∧
    ∃ retained : List AuthorityBinding, retained.length = (if g.retains s then 1 else 0) ∧
      (∀ b ∈ retained, b.scope = g.scope ∧ b.kind = .rollbackRetained) ∧
      s'.authority = retained.foldl push (g.placedTable s
        (s.bumpSequence.grantedBinding g record scopeRecord.generation))
  scopes : s'.scopes = s.scopes.touch g.scope
  versions : g.displaces s = none → s'.versions = s.versions
  /-- The displaced binding is retained for its version, if the caller named it. -/
  retained : ∀ holder, g.displaces s = some holder → isRetentionTarget g holder = true →
    ∃ b ∈ s'.authority.bindingsFor g.scope, b.live = true ∧ b.kind = .rollbackRetained ∧
      b.model = holder.model ∧ b.version = holder.version

/-- A scope that a binding was placed in has room. -/
theorem hasRoom_placedTable (g : GrantRequest) {binding : AuthorityBinding}
    (hscope : binding.scope = g.scope) : (g.placedTable s binding).hasRoom g.scope = true := by
  rw [hasRoom_iff, GrantRequest.placedTable, listed_push, hscope]
  left
  simp

/-- The binding a grant displaces is well formed and of a version that may serve. -/
theorem displaces_stands (hstanding : Standing s) {g : GrantRequest} {holder : AuthorityBinding}
    (hholder : g.displaces s = some holder) :
    malformed holder = none ∧ s.mayServe holder.model holder.version = true := by
  unfold GrantRequest.displaces at hholder
  split_ifs at hholder
  have hstands := hstanding.bindings g.scope holder (List.mem_of_find?_eq_some hholder)
  have hlive : holder.live = true := by
    have hexclusive := List.find?_some hholder
    exact (AuthorityBinding.isLiveExclusive_iff.mp hexclusive).1
  obtain ⟨record, hrecord, _, hretired⟩ := hstands.served
  exact ⟨hstands.sound, mayServe_iff.mpr ⟨record, hrecord, hretired hlive⟩⟩

/-- A grant that is not admitted is refused. Of the engine, at most the sequence
advances. -/
theorem grantAuthority_refused (hs : Coherent s) (hstanding : Standing s) {g : GrantRequest}
    (hadmitted : g.admitted s = false) :
    (s.grantAuthority g).2.allowed = false ∧
      ((s.grantAuthority g).1 = s ∨ (s.grantAuthority g).1 = s.bumpSequence) := by
  unfold grantAuthority
  cases hrecord : s.versionOf g.model g.version with
  | none => exact ⟨by simp [OutcomeCode.isPositive], Or.inl rfl⟩
  | some record =>
    dsimp only
    cases hretired : record.retired with
    | true => exact ⟨by simp [OutcomeCode.isPositive], Or.inl rfl⟩
    | false =>
      rw [if_neg Bool.false_ne_true]
      cases hscope : s.scopes.find g.scope with
      | none => exact ⟨by simp [OutcomeCode.isPositive], Or.inl rfl⟩
      | some scopeRecord =>
        have hplaced := placeBinding_allowed_iff (s := s.bumpSequence) (g := g)
          (s.bumpSequence.grantedBinding g record scopeRecord.generation) rfl rfl
        rw [malformed_grantedBinding hs hstanding hrecord hscope] at hplaced
        have hdenied : (s.bumpSequence.placeBinding g
            (s.bumpSequence.grantedBinding g record scopeRecord.generation)).2.1.allowed =
            false := by
          by_contra hallowed
          rw [Bool.not_eq_false, hplaced] at hallowed
          obtain ⟨⟨hmodel, hversion⟩, hroom, hcoexists⟩ := hallowed
          have hserves := mayServe_iff.mpr ⟨record, hrecord, hretired⟩
          rw [GrantRequest.admitted_iff.mpr ⟨hserves, hmodel, hversion, by rw [hscope]; rfl,
            hroom, hcoexists⟩] at hadmitted
          cases hadmitted
        dsimp only
        rw [hdenied, Bool.not_false, if_pos rfl, Decision.allowed, Decision.outcome_addAll]
        exact ⟨hdenied, Or.inr rfl⟩

/-- Where nothing is displaced, the grant ends with the generation of the scope. -/
theorem grantAuthority_of_vacant {g : GrantRequest} {record : ModelVersionRecord}
    {scopeRecord : ScopeRecord} {table : AuthorityTable}
    (hrecord : s.versionOf g.model g.version = some record) (hretired : record.retired = false)
    (hscope : s.scopes.find g.scope = some scopeRecord)
    (hplaced : s.bumpSequence.placeBinding g
      (s.bumpSequence.grantedBinding g record scopeRecord.generation) = (table, .accepted, none)) :
    s.grantAuthority g =
      ((s.bumpSequence.mapAuthority fun _ => table).touchScope g.scope, .accepted) := by
  unfold grantAuthority
  simp only [hrecord, hretired, Bool.false_eq_true, if_false, hscope, hplaced,
    Decision.allowed_accepted, Bool.not_true]
  rfl

/-- Where a binding is displaced, it is settled before the generation of the scope
advances. -/
theorem grantAuthority_of_displaced {g : GrantRequest} {record : ModelVersionRecord}
    {scopeRecord : ScopeRecord} {table : AuthorityTable} {displaced : AuthorityBinding}
    (hrecord : s.versionOf g.model g.version = some record) (hretired : record.retired = false)
    (hscope : s.scopes.find g.scope = some scopeRecord)
    (hplaced : s.bumpSequence.placeBinding g
      (s.bumpSequence.grantedBinding g record scopeRecord.generation) =
        (table, .accepted, some displaced))
    (hvalid : displaced.version.valid = true)
    (hsettled : ((s.bumpSequence.mapAuthority fun _ => table).settleDisplaced g
      scopeRecord.generation displaced).2.allowed = true) :
    s.grantAuthority g =
      (((s.bumpSequence.mapAuthority fun _ => table).settleDisplaced g scopeRecord.generation
        displaced).1.touchScope g.scope, .accepted) := by
  unfold mapAuthority at hsettled ⊢
  unfold grantAuthority
  simp only [hrecord, hretired, Bool.false_eq_true, if_false, hscope, hplaced,
    Decision.allowed_accepted, Bool.not_true, hvalid, hsettled]

/-- The state once an admitted grant has put its binding into the table. -/
def GrantRequest.placedState (g : GrantRequest) (s : EngineState) (record : ModelVersionRecord)
    (scopeRecord : ScopeRecord) : EngineState :=
  s.bumpSequence.mapAuthority fun _ =>
    g.placedTable s (s.bumpSequence.grantedBinding g record scopeRecord.generation)

/-- An admitted grant places its binding. -/
theorem placeBinding_admitted (hs : Coherent s) (hstanding : Standing s) {g : GrantRequest}
    (hadmitted : g.admitted s = true) :
    ∃ record scopeRecord, s.versionOf g.model g.version = some record ∧ record.retired = false ∧
      s.scopes.find g.scope = some scopeRecord ∧
      s.bumpSequence.placeBinding g
        (s.bumpSequence.grantedBinding g record scopeRecord.generation) =
          (g.placedTable s (s.bumpSequence.grantedBinding g record scopeRecord.generation),
            .accepted, (g.displaces s).map AuthorityBinding.supersede) := by
  obtain ⟨hserves, hmodel, hversion, hregistered, hroom, hcoexists⟩ :=
    GrantRequest.admitted_iff.mp hadmitted
  obtain ⟨record, hrecord, hretired⟩ := mayServe_iff.mp hserves
  obtain ⟨scopeRecord, hscope⟩ := Option.isSome_iff_exists.mp hregistered
  refine ⟨record, scopeRecord, hrecord, hretired, hscope, ?_⟩
  exact placeBinding_of_allowed rfl rfl ((placeBinding_allowed_iff _ rfl rfl).mpr
    ⟨(malformed_grantedBinding hs hstanding hrecord hscope).mpr ⟨hmodel, hversion⟩, hroom,
      hcoexists⟩)

/-- What an admitted grant comes to when it displaces nothing. -/
theorem grantAuthority_alone (hs : Coherent s) (hstanding : Standing s) {g : GrantRequest}
    (hadmitted : g.admitted s = true) (hvacant : g.displaces s = none) :
    ∃ record scopeRecord, s.versionOf g.model g.version = some record ∧
      s.scopes.find g.scope = some scopeRecord ∧
      s.grantAuthority g =
        ((g.placedState s record scopeRecord).touchScope g.scope, .accepted) := by
  obtain ⟨record, scopeRecord, hrecord, hretired, hscope, hplaced⟩ :=
    placeBinding_admitted hs hstanding hadmitted
  rw [hvacant] at hplaced
  exact ⟨record, scopeRecord, hrecord, hscope,
    grantAuthority_of_vacant hrecord hretired hscope hplaced⟩

/-- What an admitted grant comes to when it displaces a binding: the displaced version is
retained, if the caller named it, and demoted. -/
theorem grantAuthority_displaced (hs : Coherent s) (hstanding : Standing s) {g : GrantRequest}
    (hadmitted : g.admitted s = true) {holder : AuthorityBinding}
    (hholder : g.displaces s = some holder) :
    ∃ record scopeRecord previous, s.versionOf g.model g.version = some record ∧
      s.scopes.find g.scope = some scopeRecord ∧
      s.versionOf holder.model holder.version = some previous ∧ previous.retired = false ∧
      s.grantAuthority g =
        (((if isRetentionTarget g holder then
            (g.placedState s record scopeRecord).bumpSequence.mapAuthority (·.push
              ((g.placedState s record scopeRecord).bumpSequence.retentionBinding
                scopeRecord.generation holder.supersede previous g.scope))
          else g.placedState s record scopeRecord).demoteDisplaced holder.model
            holder.version).touchScope g.scope, .accepted) := by
  obtain ⟨record, scopeRecord, hrecord, hretired, hscope, hplaced⟩ :=
    placeBinding_admitted hs hstanding hadmitted
  obtain ⟨hsound, hmayServe⟩ := displaces_stands hstanding hholder
  obtain ⟨previous, hprevious, hactive⟩ := mayServe_iff.mp hmayServe
  obtain ⟨_, hvalid, _⟩ := malformed_eq_none_iff.mp hsound
  have hfound := ScopeRegistry.find_eq_some_iff.mp hscope
  rw [hholder] at hplaced
  have hsettled := settleDisplaced_eq (g := g) (s := g.placedState s record scopeRecord)
    scopeRecord.generation holder.supersede hsound hprevious hactive hfound.1
    (hstanding.tree.generation _ scopeRecord hfound.2) (hasRoom_placedTable g rfl)
  refine ⟨record, scopeRecord, previous, hrecord, hscope, hprevious, hactive, ?_⟩
  rw [grantAuthority_of_displaced hrecord hretired hscope hplaced hvalid
    (by rw [← GrantRequest.placedState, hsettled]; rfl), ← GrantRequest.placedState, hsettled]
  rfl

/-- An admitted grant succeeds. -/
theorem grantAuthority_admitted (hs : Coherent s) (hstanding : Standing s) {g : GrantRequest}
    (hadmitted : g.admitted s = true) :
    (s.grantAuthority g).2.allowed = true ∧ Granted s g (s.grantAuthority g).1 := by
  cases hdisplaced : g.displaces s with
  | none =>
    obtain ⟨record, scopeRecord, hrecord, hscope, hgrant⟩ :=
      grantAuthority_alone hs hstanding hadmitted hdisplaced
    rw [hgrant]
    refine ⟨rfl, ⟨record, scopeRecord, hrecord, hscope, [], ?_, ?_, rfl⟩, rfl, fun _ => rfl, ?_⟩
    · rw [GrantRequest.retains, hdisplaced]
      rfl
    · intro b hb
      cases hb
    · intro holder hholder
      rw [hdisplaced] at hholder
      cases hholder
  | some holder =>
    obtain ⟨record, scopeRecord, previous, hrecord, hscope, _, _, hgrant⟩ :=
      grantAuthority_displaced hs hstanding hadmitted hdisplaced
    have hretains : g.retains s = isRetentionTarget g holder := by
      rw [GrantRequest.retains, hdisplaced]
      rfl
    rw [hgrant]
    refine ⟨rfl, ⟨record, scopeRecord, hrecord, hscope, ?_⟩, ?_, ?_, ?_⟩
    · rw [hretains, touchScope_authority, (demoteDisplaced_kept _ _ _).1]
      by_cases htarget : isRetentionTarget g holder = true
      · rw [if_pos htarget, if_pos htarget]
        refine ⟨[_], rfl, ?_, rfl⟩
        intro b hb
        rw [List.mem_singleton.mp hb]
        exact ⟨rfl, rfl⟩
      · rw [if_neg htarget, if_neg htarget]
        refine ⟨[], rfl, ?_, rfl⟩
        intro b hb
        cases hb
    · rw [touchScope_scopes, (demoteDisplaced_kept _ _ _).2]
      split_ifs <;> rfl
    · intro hnone
      rw [hdisplaced] at hnone
      cases hnone
    · intro named hnamed htarget
      obtain rfl := Option.some.inj (hdisplaced.symm.trans hnamed)
      rw [if_pos htarget, touchScope_authority, (demoteDisplaced_kept _ _ _).1,
        mapAuthority_authority]
      refine ⟨(g.placedState s record scopeRecord).bumpSequence.retentionBinding
        scopeRecord.generation holder.supersede previous g.scope, ?_, rfl, rfl, rfl, rfl⟩
      exact mem_bindingsFor_push.mpr (Or.inr ⟨rfl, rfl⟩)

/-- In a reachable state the grant routine succeeds exactly on the grants it admits. -/
theorem grantAuthority_allowed (hs : Coherent s) (hstanding : Standing s) (g : GrantRequest) :
    (s.grantAuthority g).2.allowed = g.admitted s := by
  cases hadmitted : g.admitted s with
  | true => exact (grantAuthority_admitted hs hstanding hadmitted).1
  | false => exact (grantAuthority_refused hs hstanding hadmitted).1

/-! ## What a grant leaves of the table -/

/-- The number of bindings a grant appends. -/
def GrantRequest.places (g : GrantRequest) (s : EngineState) : ℕ := if g.retains s then 2 else 1

/-- Appending bindings of one scope leaves the others alone. -/
theorem bindingsFor_pushAll {scope other : ScopeId} (hne : other ≠ scope)
    (bindings : List AuthorityBinding) (table : AuthorityTable)
    (hbindings : ∀ b ∈ bindings, b.scope = scope) :
    (bindings.foldl push table).bindingsFor other = table.bindingsFor other := by
  induction bindings generalizing table with
  | nil => rfl
  | cons binding rest ih =>
    rw [List.foldl_cons, ih _ fun b hb => hbindings b (List.mem_cons_of_mem _ hb),
      bindingsFor_push, hbindings binding List.mem_cons_self, if_neg hne, List.append_nil]

/-- Appending bindings of a scope that has a list gives no other scope one. -/
theorem listed_pushAll {scope : ScopeId} (bindings : List AuthorityBinding)
    (table : AuthorityTable) (hlisted : table.listed scope = true)
    (hbindings : ∀ b ∈ bindings, b.scope = scope) (other : ScopeId) :
    (bindings.foldl push table).listed other = table.listed other := by
  induction bindings generalizing table with
  | nil => rfl
  | cons binding rest ih =>
    have hpushed : ∀ other, (table.push binding).listed other = table.listed other := by
      intro other
      rw [listed_push, hbindings binding List.mem_cons_self]
      by_cases hother : other = scope
      · rw [hother, hlisted]
        rfl
      · rw [decide_eq_false hother, Bool.or_false]
    rw [List.foldl_cons, ih _ ((hpushed scope).trans hlisted)
      fun b hb => hbindings b (List.mem_cons_of_mem _ hb), hpushed]

theorem size_pushAll (bindings : List AuthorityBinding) (table : AuthorityTable) :
    (bindings.foldl push table).size = table.size + bindings.length := by
  induction bindings generalizing table with
  | nil => rfl
  | cons binding rest ih =>
    rw [List.foldl_cons, ih, size_push, List.length_cons]
    omega

theorem maxBindings_pushAll (bindings : List AuthorityBinding) (table : AuthorityTable) :
    (bindings.foldl push table).maxBindings = table.maxBindings := by
  induction bindings generalizing table with
  | nil => rfl
  | cons binding rest ih => exact ih (table.push binding)

section Placed

variable {g : GrantRequest} (binding : AuthorityBinding) (hscope : binding.scope = g.scope)
include hscope

theorem bindingsFor_placedTable_of_ne {scope : ScopeId} (hne : scope ≠ g.scope) :
    (g.placedTable s binding).bindingsFor scope = s.authority.bindingsFor scope := by
  unfold GrantRequest.placedTable
  rw [bindingsFor_push, hscope, if_neg hne, List.append_nil]
  split_ifs
  · have hraw : scope.raw ≠ g.scope.raw := fun heq => hne (Ident.ext heq)
    rw [withdrawExclusive, bindingsFor, OrdMap.get?_modify_of_ne _ _ hraw, ← bindingsFor]
  · rfl

theorem listed_placedTable (scope : ScopeId) :
    (g.placedTable s binding).listed scope =
      (s.authority.listed scope || decide (scope = g.scope)) := by
  unfold GrantRequest.placedTable
  rw [listed_push, hscope]
  split_ifs
  · rw [withdrawExclusive, listed_modify]
  · rfl

end Placed

theorem size_placedTable (g : GrantRequest) (binding : AuthorityBinding) :
    (g.placedTable s binding).size = s.authority.size + 1 := by
  unfold GrantRequest.placedTable
  rw [size_push]
  split_ifs
  · rw [withdrawExclusive, size_modify _ _ length_supersedeFirstExclusive]
  · rfl

/-- A grant leaves the bindings of the other scopes alone. -/
theorem Granted.bindingsFor_of_ne {g : GrantRequest} (h : Granted s g s') {scope : ScopeId}
    (hne : scope ≠ g.scope) : s'.authority.bindingsFor scope = s.authority.bindingsFor scope := by
  obtain ⟨record, scopeRecord, _, _, retained, _, hretained, htable⟩ := h.placed
  rw [htable, bindingsFor_pushAll hne retained _ fun b hb => (hretained b hb).1,
    bindingsFor_placedTable_of_ne (g := g) _ rfl hne]

theorem Granted.listed {g : GrantRequest} (h : Granted s g s') (scope : ScopeId) :
    s'.authority.listed scope = (s.authority.listed scope || decide (scope = g.scope)) := by
  obtain ⟨record, scopeRecord, _, _, retained, _, hretained, htable⟩ := h.placed
  have hown := listed_placedTable (s := s) (g := g)
    (s.bumpSequence.grantedBinding g record scopeRecord.generation) rfl
  rw [htable, listed_pushAll retained _ (by rw [hown]; simp) fun b hb => (hretained b hb).1, hown]

theorem Granted.size {g : GrantRequest} (h : Granted s g s') :
    s'.authority.size = s.authority.size + g.places s := by
  obtain ⟨record, scopeRecord, _, _, retained, hlength, _, htable⟩ := h.placed
  rw [htable, size_pushAll, size_placedTable, hlength, GrantRequest.places]
  split_ifs <;> omega

theorem Granted.maxBindings {g : GrantRequest} (h : Granted s g s') :
    s'.authority.maxBindings = s.authority.maxBindings := by
  obtain ⟨record, scopeRecord, _, _, retained, _, _, htable⟩ := h.placed
  rw [htable, maxBindings_pushAll, GrantRequest.placedTable]
  split_ifs <;> rfl

/-! ## Taking a scope over -/

/-- What is left when a scope is cleared and then granted exclusively. -/
structure TakenOver (s : EngineState) (g : GrantRequest) (s' : EngineState) : Prop where
  here : ∃ record scopeRecord, s.versionOf g.model g.version = some record ∧
    s.scopes.find g.scope = some scopeRecord ∧
    s'.authority.bindingsFor g.scope =
      (s.authority.bindingsFor g.scope).map AuthorityBinding.supersede ++
        [s.bumpSequence.grantedBinding g record scopeRecord.generation]
  elsewhere : ∀ scope, scope ≠ g.scope →
    s'.authority.bindingsFor scope = s.authority.bindingsFor scope
  versions : s'.versions = s.versions
  scopes : s'.scopes = s.scopes.touch g.scope

/-- Clearing a scope that has bindings and granting it to a version that may serve is never
refused. -/
theorem takeOver_spec (hs : Coherent s) (hstanding : Standing s) {g : GrantRequest}
    (hsupersede : g.supersedeExisting = true)
    (hserves : s.mayServe g.model g.version = true) (hmodel : g.model.valid = true)
    (hversion : g.version.valid = true) (hscope : (s.scopes.find g.scope).isSome = true)
    (hroom : s.authority.hasRoom g.scope = true) :
    let granted := (s.mapAuthority (·.supersedeScope g.scope)).grantAuthority g
    granted.2.allowed = true ∧ TakenOver s g granted.1 := by
  have hchain : Chain {} {} s (s.mapAuthority (·.supersedeScope g.scope)) :=
    chain_supersedeScope s g.scope
  have hcleared : g.displaces (s.mapAuthority (·.supersedeScope g.scope)) = none := by
    rw [GrantRequest.displaces, if_pos hsupersede, holderOf, List.find?_eq_none]
    intro binding hbinding
    rw [AuthorityBinding.isLiveExclusive, not_live_of_supersedeScope hbinding]
    exact Bool.false_ne_true
  have hadmitted : g.admitted (s.mapAuthority (·.supersedeScope g.scope)) = true := by
    refine GrantRequest.admitted_iff.mpr ⟨hserves, hmodel, hversion, hscope, ?_, ?_⟩
    · exact (hasRoom_mapScope s.authority g.scope g.scope _).trans hroom
    · rw [GrantRequest.coexists, hsupersede, Bool.true_or]
  obtain ⟨hallowed, hgranted⟩ := grantAuthority_admitted (hchain.coherent hs)
    (hchain.standing hstanding) hadmitted
  refine ⟨hallowed, ?_, ?_, hgranted.versions hcleared, hgranted.scopes⟩
  · obtain ⟨record, scopeRecord, hrecord, hfound, retained, hlength, _, htable⟩ := hgranted.placed
    have hnone : retained = [] := by
      rw [GrantRequest.retains, hcleared] at hlength
      exact List.length_eq_zero_iff.mp hlength
    have hvacant : ((s.mapAuthority (·.supersedeScope g.scope)).authority.bindingsFor
        g.scope).find? AuthorityBinding.isLiveExclusive = none := by
      rw [GrantRequest.displaces, if_pos hsupersede] at hcleared
      exact hcleared
    refine ⟨record, scopeRecord, hrecord, hfound, ?_⟩
    rw [htable, hnone, List.foldl_nil, GrantRequest.placedTable, if_pos hsupersede,
      withdrawExclusive_of_none hvacant, bindingsFor_push]
    exact congrArg₂ (· ++ ·) ((bindingsFor_mapScope s.authority g.scope g.scope _).trans
      (if_pos rfl)) (if_pos rfl)
  · intro scope hne
    rw [hgranted.bindingsFor_of_ne hne]
    exact (bindingsFor_mapScope s.authority g.scope scope _).trans (if_neg hne)

end LifecycleFabric
