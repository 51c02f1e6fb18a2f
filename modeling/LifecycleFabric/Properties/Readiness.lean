import LifecycleFabric.BackendCalls
import LifecycleFabric.Lib.Runs

/-!
# Which replicas become ready

A direct activation refuses a cold replica but does not look at its health. The commands that
activate look at the health and warm what they activate. So a run of calls and commands keeps
ready replicas healthy, and makes ready only what was warmed before, exactly when every direct
activation of a warm replica finds it healthy and every activating command finds its healthy
replicas warm.
-/

namespace LifecycleFabric

open SyntheticLifecycleBackend

/-- The kinds of command that make replicas ready. -/
def AttemptKind.activates : AttemptKind → Bool
  | .activate | .promoteReplicaGroup | .rollback | .rehydrate => true
  | _ => false

/-- Every ready replica is healthy. -/
def ReadyHealthy (h : BackendHistory) : Prop :=
  ∀ key replica, h.backend.replicas.get? key = some replica → replica.ready = true →
    replica.healthy = true

/-- An activating command makes only replicas ready that were warmed before. -/
def ReadiesWarmed (h : BackendHistory) : BackendCall → Prop
  | .execute command => command.kind.activates = true →
    ∀ key after, (h.backend.execute command).1.replicas.get? key = some after →
      after.ready = true → (∀ before, h.backend.replicas.get? key = some before →
        before.ready = false) → key ∈ h.warmed
  | _ => True

/-- A direct activation of a warm replica finds it healthy, and an activating command finds the
replicas it activates warm. -/
def ActivatesSoundly (h : BackendHistory) : BackendCall → Prop
  | .activate id => ∀ replica, h.backend.replicas.get? id.raw = some replica →
    replica.warm = true → replica.healthy = true
  | .execute command => command.kind.activates = true →
    ∀ key replica, h.backend.replicas.get? key = some replica →
      activatable command replica = true → replica.warm = true
  | _ => True

/-- What is recorded of a replica agrees with its history: it is warm exactly when it was
warmed, and ready only when healthy and warm. -/
def TracksWarmth (warmed : Prop) (replica : SyntheticReplica) : Prop :=
  (replica.warm = true ↔ warmed) ∧
    (replica.ready = true → replica.healthy = true ∧ replica.warm = true)

/-- Every stored replica agrees with its history. -/
def SoundIn (replicas : OrdMap UInt64 SyntheticReplica) (keys : Finset UInt64) : Prop :=
  ∀ key replica, replicas.get? key = some replica → TracksWarmth (key ∈ keys) replica

variable {replicas : OrdMap UInt64 SyntheticReplica} {keys keys' : Finset UInt64}
  {backend : SyntheticLifecycleBackend} {command : CommandMessage}

/-! ## One replica -/

theorem TracksWarmth.withHealth {w : Prop} {replica : SyntheticReplica} (h : TracksWarmth w replica)
    (healthy : Bool) : TracksWarmth w (replica.withHealth healthy) := by
  refine ⟨h.1, fun hready => ?_⟩
  cases healthy with
  | false => cases hready
  | true => exact ⟨rfl, (h.2 hready).2⟩

theorem TracksWarmth.warmed {w : Prop} {replica : SyntheticReplica} (h : TracksWarmth w replica) :
    TracksWarmth True replica.warmed :=
  ⟨iff_of_true rfl trivial, fun hready => ⟨(h.2 hready).1, rfl⟩⟩

theorem TracksWarmth.madeReady {w : Prop} {replica : SyntheticReplica} (h : TracksWarmth w replica)
    (hwarm : replica.warm = true) (hhealthy : replica.healthy = true) :
    TracksWarmth w replica.madeReady :=
  ⟨h.1, fun _ => ⟨hhealthy, hwarm⟩⟩

theorem TracksWarmth.activated {w : Prop} {replica : SyntheticReplica} (h : TracksWarmth w replica)
    (hwarm : replica.warm = true) (hhealthy : replica.healthy = true) :
    TracksWarmth w replica.activated :=
  ⟨iff_of_true rfl (h.1.mp hwarm), fun _ => ⟨hhealthy, rfl⟩⟩

theorem TracksWarmth.drained {w : Prop} {replica : SyntheticReplica} (h : TracksWarmth w replica) :
    TracksWarmth w replica.drained :=
  ⟨h.1, fun hready => by cases hready⟩

/-! ## The stored replicas -/

theorem SoundIn.filter (h : SoundIn replicas keys) (keep : UInt64 → SyntheticReplica → Bool) :
    SoundIn (replicas.filter keep) keys := by
  intro key replica hreplica
  rw [OrdMap.get?_filter] at hreplica
  obtain ⟨hstored, _⟩ := Option.filter_eq_some_iff.mp hreplica
  exact h key replica hstored

theorem SoundIn.erase (h : SoundIn replicas keys) (gone : UInt64) :
    SoundIn (replicas.erase gone) keys := by
  intro key replica hreplica
  rw [OrdMap.get?_erase] at hreplica
  split_ifs at hreplica
  exact h key replica hreplica

/-- Changing each replica as its history allows. -/
theorem soundIn_mapValues {change : SyntheticReplica → SyntheticReplica}
    (hchange : ∀ key replica, replicas.get? key = some replica →
      TracksWarmth (key ∈ keys) (change replica)) :
    SoundIn (replicas.mapValues fun _ => change) keys := by
  intro key replica hreplica
  rw [OrdMap.get?_mapValues] at hreplica
  obtain ⟨before, hbefore, rfl⟩ := Option.map_eq_some_iff.mp hreplica
  exact hchange key before hbefore

/-- Changing one replica, with the history of the others kept. -/
theorem SoundIn.modify (h : SoundIn replicas keys) {changed : UInt64}
    {change : SyntheticReplica → SyntheticReplica}
    (hothers : ∀ key, key ≠ changed → (key ∈ keys' ↔ key ∈ keys))
    (hchange : ∀ replica, replicas.get? changed = some replica →
      TracksWarmth (changed ∈ keys') (change replica)) :
    SoundIn (replicas.modify changed change) keys' := by
  intro key replica hreplica
  rw [OrdMap.get?_modify] at hreplica
  obtain ⟨before, hbefore, rfl⟩ := Option.map_eq_some_iff.mp hreplica
  by_cases hkey : key = changed
  · subst hkey
    rw [if_pos rfl]
    exact hchange before hbefore
  · rw [if_neg hkey]
    have hold := h key before hbefore
    exact ⟨hold.1.trans (hothers key hkey).symm, hold.2⟩

/-- Storing a new replica under a free key. -/
theorem SoundIn.insertNew (h : SoundIn replicas keys) {added : UInt64}
    {replica : SyntheticReplica} (hfree : replicas.get? added = none)
    (hothers : ∀ key, key ≠ added → (key ∈ keys' ↔ key ∈ keys))
    (hadded : TracksWarmth (added ∈ keys') replica) :
    SoundIn (replicas.insertNew added replica) keys' := by
  intro key stored hstored
  rw [OrdMap.get?_insertNew] at hstored
  by_cases hkey : key = added
  · subst hkey
    rw [if_pos rfl, hfree] at hstored
    obtain rfl := Option.some.inj hstored
    exact hadded
  · rw [if_neg hkey] at hstored
    have hold := h key stored hstored
    exact ⟨hold.1.trans (hothers key hkey).symm, hold.2⟩

/-! ## The commands -/

theorem execute_backend (backend : SyntheticLifecycleBackend) (command : CommandMessage) :
    (backend.execute command).1 = (backend.executeKind command).1 ∧
      (backend.execute command).2.effectApplied = (backend.executeKind command).2.effectApplied := by
  unfold execute
  dsimp only
  split_ifs <;> exact ⟨rfl, rfl⟩

/-- What an activating command does: it activates the replicas that can be. -/
theorem execute_activates (hkind : command.kind.activates = true) :
    (backend.execute command).1.replicas = backend.replicas.mapValues fun _ replica =>
      if activatable command replica then replica.activated else replica := by
  rw [(execute_backend backend command).1, executeKind]
  cases hcommand : command.kind with
  | activate => rfl
  | promoteReplicaGroup => rfl
  | rollback => rfl
  | rehydrate => rfl
  | warm => rw [hcommand] at hkind; cases hkind
  | drain => rw [hcommand] at hkind; cases hkind
  | startCanaryReplicas => rw [hcommand] at hkind; cases hkind
  | evictRetired => rw [hcommand] at hkind; cases hkind

theorem healthy_of_activatable {replica : SyntheticReplica}
    (h : activatable command replica = true) : replica.healthy = true := by
  rw [activatable, Bool.and_eq_true] at h
  exact h.2

theorem SoundIn.execute_activates (h : SoundIn backend.replicas keys)
    (hkind : command.kind.activates = true)
    (hwarm : ∀ key replica, backend.replicas.get? key = some replica →
      activatable command replica = true → replica.warm = true) :
    SoundIn (backend.execute command).1.replicas keys := by
  rw [LifecycleFabric.execute_activates hkind]
  refine soundIn_mapValues fun key replica hreplica => ?_
  by_cases hactivatable : activatable command replica = true
  · rw [if_pos hactivatable]
    exact (h key replica hreplica).activated (hwarm key replica hreplica hactivatable)
      (healthy_of_activatable hactivatable)
  · rw [if_neg hactivatable]
    exact h key replica hreplica

theorem SoundIn.execute_drain (h : SoundIn backend.replicas keys) (hkind : command.kind = .drain) :
    SoundIn (backend.execute command).1.replicas keys := by
  have hreplicas : (backend.execute command).1.replicas = backend.replicas.mapValues fun _ replica =>
      if replica.servesIn command then replica.drained else replica := by
    rw [(execute_backend backend command).1, executeKind, hkind]
    rfl
  rw [hreplicas]
  refine soundIn_mapValues fun key replica hreplica => ?_
  by_cases hserves : replica.servesIn command = true
  · rw [if_pos hserves]
    exact (h key replica hreplica).drained
  · rw [if_neg hserves]
    exact h key replica hreplica

theorem SoundIn.execute_evict (h : SoundIn backend.replicas keys)
    (hkind : command.kind = .evictRetired) : SoundIn (backend.execute command).1.replicas keys := by
  rw [(execute_backend backend command).1, executeKind, hkind]
  exact h.filter _

/-- What a command without room leaves, and what it adds with room. -/
theorem executeStart_cases (backend : SyntheticLifecycleBackend) (command : CommandMessage) :
    backend.executeStart command = (backend, replicaBoundReached) ∨
      ∃ replica, (backend.executeStart command).1.replicas =
          backend.replicas.insertNew backend.nextReplicaId replica ∧
        (backend.executeStart command).2.effectApplied = true ∧ replica.warm = true ∧
        replica.healthy = true := by
  unfold executeStart
  split_ifs with hfull
  · exact Or.inl rfl
  · exact Or.inr ⟨_, rfl, rfl, rfl, rfl⟩

/-- A canary starts warm and ready under the next identity. -/
theorem SoundIn.execute_start (h : SoundIn backend.replicas keys)
    (hkind : command.kind = .startCanaryReplicas) :
    SoundIn (backend.execute command).1.replicas
      (BackendCall.noteWarmed backend keys (.execute command)) := by
  rw [BackendCall.noteWarmed, (execute_backend backend command).1,
    (execute_backend backend command).2, executeKind, hkind]
  dsimp only
  rcases executeStart_cases backend command with hfull | ⟨replica, hafter, happlied, hwarm, hhealthy⟩
  · rw [hfull]
    exact h
  · rw [hafter, happlied, if_pos rfl]
    cases hstored : backend.replicas.get? backend.nextReplicaId with
    | some stored =>
      rw [if_pos (OrdMap.contains_iff.mpr ⟨stored, hstored⟩), OrdMap.insertNew_of_get?_some hstored]
      exact h
    | none =>
      rw [if_neg (by simp [OrdMap.contains, hstored])]
      refine h.insertNew hstored ?_ ?_
      · intro key hkey
        rw [Finset.mem_insert, or_iff_right hkey]
      · exact ⟨iff_of_true hwarm (Finset.mem_insert_self _ _), fun _ => ⟨hhealthy, hwarm⟩⟩

/-- A warmup either finds no healthy replica and changes nothing, or warms one. -/
theorem warmReplica_cases (backend : SyntheticLifecycleBackend) (key : UInt64) :
    ((backend.warmReplica key).1 = backend ∧ (backend.warmReplica key).2.effectApplied = false ∧
        ∀ replica, backend.replicas.get? key = some replica → replica.healthy = false) ∨
      (backend.warmReplica key).1.replicas =
          backend.replicas.modify key SyntheticReplica.warmed ∧
        (backend.warmReplica key).2.effectApplied = true := by
  unfold SyntheticLifecycleBackend.warmReplica
  cases hstored : backend.replicas.get? key with
  | none => exact Or.inl ⟨rfl, rfl, fun replica hsome => by cases hsome⟩
  | some replica =>
    dsimp only
    split_ifs with hunhealthy
    · refine Or.inl ⟨rfl, rfl, ?_⟩
      rintro stored hsome
      obtain rfl := Option.some.inj hsome
      simpa using hunhealthy
    · exact Or.inr ⟨rfl, rfl⟩

/-- Warming a replica and noting that it was warmed. -/
theorem SoundIn.modify_warmed (h : SoundIn replicas keys) (key : UInt64) :
    SoundIn (replicas.modify key SyntheticReplica.warmed) (insert key keys) := by
  refine h.modify ?_ ?_
  · intro other hother
    rw [Finset.mem_insert, or_iff_right hother]
  · intro stored hstored
    have hwarmed := (h key stored hstored).warmed
    exact ⟨hwarmed.1.trans (iff_of_true trivial (Finset.mem_insert_self key keys)), hwarmed.2⟩

/-- A new cold replica under a free key. -/
theorem SoundIn.insertNew_cold (h : SoundIn replicas keys) {added : UInt64}
    {replica : SyntheticReplica} (hfree : replicas.get? added = none)
    (hcold : replica.warm = false) (hidle : replica.ready = false) :
    SoundIn (replicas.insertNew added replica) (keys.erase added) := by
  refine h.insertNew hfree ?_ ?_
  · intro key hkey
    rw [Finset.mem_erase, and_iff_right hkey]
  · refine ⟨?_, fun hready => ?_⟩
    · rw [hcold]
      exact iff_of_false Bool.false_ne_true (Finset.notMem_erase added keys)
    · rw [hidle] at hready
      cases hready

theorem SoundIn.warmReplica (h : SoundIn backend.replicas keys) (key : UInt64) :
    SoundIn (backend.warmReplica key).1.replicas
      (if (backend.warmReplica key).2.effectApplied then insert key keys else keys) := by
  rcases warmReplica_cases backend key with ⟨hsame, hidle, _⟩ | ⟨hwarmed, happlied⟩
  · rw [hsame, hidle]
    exact h
  · rw [hwarmed, happlied, if_pos rfl]
    exact h.modify_warmed key

/-- A warm command warms the replica it is for, or a new one. -/
theorem SoundIn.execute_warm (h : SoundIn backend.replicas keys) (hkind : command.kind = .warm) :
    SoundIn (backend.execute command).1.replicas
      (BackendCall.noteWarmed backend keys (.execute command)) := by
  rw [BackendCall.noteWarmed, (execute_backend backend command).1,
    (execute_backend backend command).2, executeKind, hkind]
  dsimp only
  unfold executeWarm BackendCall.warmKey
  cases htarget : backend.warmTarget command with
  | some e => exact h.warmReplica e.1
  | none =>
    dsimp only
    by_cases hfull : backend.maxReplicas ≤ backend.replicas.size
    · rw [if_pos hfull]
      exact h
    · rw [if_neg hfull]
      cases hstored : backend.replicas.get? backend.nextReplicaId with
      | some stored =>
        have hkept : SoundIn (backend.addReplica (backend.replicaFor command)).replicas keys := by
          rw [addReplica, OrdMap.insertNew_of_get?_some hstored]
          exact h
        exact hkept.warmReplica backend.nextReplicaId
      | none =>
        have hadded : SoundIn (backend.addReplica (backend.replicaFor command)).replicas
            (keys.erase backend.nextReplicaId) := h.insertNew_cold hstored rfl rfl
        have hfound : (backend.addReplica (backend.replicaFor command)).replicas.get?
            backend.nextReplicaId = some (backend.replicaFor command) := by
          rw [addReplica, OrdMap.get?_insertNew, if_pos rfl, hstored]
          rfl
        rcases warmReplica_cases (backend.addReplica (backend.replicaFor command))
          backend.nextReplicaId with ⟨_, _, hunhealthy⟩ | ⟨hwarmed, happlied⟩
        · cases hunhealthy _ hfound
        · rw [hwarmed, happlied, if_pos rfl]
          have hresult := hadded.modify_warmed backend.nextReplicaId
          have hkeys : insert backend.nextReplicaId (keys.erase backend.nextReplicaId) =
              insert backend.nextReplicaId keys := by
            ext key
            simp only [Finset.mem_insert, Finset.mem_erase]
            tauto
          rw [hkeys] at hresult
          exact hresult

/-! ## The calls -/

/-- Every stored replica of the backend agrees with its history. -/
def BackendHistory.Sound (h : BackendHistory) : Prop := SoundIn h.backend.replicas h.warmed

theorem BackendHistory.Sound.readyHealthy {h : BackendHistory} (hs : h.Sound) : ReadyHealthy h :=
  fun key replica hreplica hready => ((hs key replica hreplica).2 hready).1

theorem noteWarmed_execute (hwarm : command.kind ≠ .warm)
    (hstart : command.kind ≠ .startCanaryReplicas) :
    BackendCall.noteWarmed backend keys (.execute command) = keys := by
  rw [BackendCall.noteWarmed]
  cases hkind : command.kind with
  | warm => exact absurd hkind hwarm
  | startCanaryReplicas => exact absurd hkind hstart
  | _ => exact ite_self keys

theorem SoundIn.execute (h : SoundIn backend.replicas keys)
    (hcondition : ActivatesSoundly ⟨backend, keys⟩ (.execute command)) :
    SoundIn (backend.execute command).1.replicas
      (BackendCall.noteWarmed backend keys (.execute command)) := by
  cases hkind : command.kind with
  | warm => exact h.execute_warm hkind
  | startCanaryReplicas => exact h.execute_start hkind
  | drain =>
    rw [noteWarmed_execute (by simp [hkind]) (by simp [hkind])]
    exact h.execute_drain hkind
  | evictRetired =>
    rw [noteWarmed_execute (by simp [hkind]) (by simp [hkind])]
    exact h.execute_evict hkind
  | activate | promoteReplicaGroup | rollback | rehydrate =>
    have hactivates : command.kind.activates = true := by rw [hkind]; rfl
    rw [noteWarmed_execute (by simp [hkind]) (by simp [hkind])]
    exact h.execute_activates hactivates (hcondition hactivates)

theorem SoundIn.addReplica (h : SoundIn backend.replicas keys) (scope : ScopeId)
    (model : ModelId) (version : ModelVersionId) (modelGeneration : ModelGeneration)
    (artifactGeneration : ArtifactGeneration) :
    SoundIn (Direct.addReplica backend scope model version modelGeneration
        artifactGeneration).1.replicas
      (BackendCall.noteWarmed backend keys
        (.addReplica scope model version modelGeneration artifactGeneration)) := by
  have hnoted : BackendCall.noteWarmed backend keys
      (.addReplica scope model version modelGeneration artifactGeneration) =
        if backend.replicas.contains backend.nextReplicaId then keys
        else keys.erase backend.nextReplicaId := rfl
  rw [hnoted]
  cases hstored : backend.replicas.get? backend.nextReplicaId with
  | some stored =>
    rw [if_pos (OrdMap.contains_iff.mpr ⟨stored, hstored⟩)]
    unfold Direct.addReplica
    split_ifs
    · exact h
    · exact h
    · dsimp only [SyntheticLifecycleBackend.addReplica]
      rw [OrdMap.insertNew_of_get?_some hstored]
      exact h
  | none =>
    have herased : SoundIn backend.replicas (keys.erase backend.nextReplicaId) := by
      intro key replica hreplica
      have hne : key ≠ backend.nextReplicaId := by
        rintro rfl
        rw [hstored] at hreplica
        cases hreplica
      have hold := h key replica hreplica
      exact ⟨hold.1.trans (Finset.mem_erase.trans (and_iff_right hne)).symm, hold.2⟩
    rw [if_neg (by simp [OrdMap.contains, hstored])]
    unfold Direct.addReplica
    split_ifs
    · exact herased
    · exact herased
    · refine h.insertNew_cold hstored ?_ ?_
      · rfl
      · rfl

theorem SoundIn.direct_warm (h : SoundIn backend.replicas keys) (id : ReplicaId) :
    SoundIn (Direct.warm backend id).1.replicas
      (BackendCall.noteWarmed backend keys (.warm id)) := by
  rw [BackendCall.noteWarmed]
  unfold Direct.warm
  cases hstored : backend.replicas.get? id.raw with
  | none => exact h
  | some replica =>
    dsimp only
    split_ifs with hunhealthy hallowed hallowed
    · cases hallowed
    · exact h
    · exact h.modify_warmed id.raw
    · exact absurd rfl hallowed

/-- A direct activation of a warm replica, which is healthy. -/
theorem SoundIn.direct_activate (h : SoundIn backend.replicas keys) (id : ReplicaId)
    (hhealthy : ∀ replica, backend.replicas.get? id.raw = some replica →
      replica.warm = true → replica.healthy = true) :
    SoundIn (Direct.activate backend id).1.replicas keys := by
  unfold Direct.activate
  cases hstored : backend.replicas.get? id.raw with
  | none => exact h
  | some replica =>
    dsimp only
    split_ifs with hcold
    · exact h
    · refine h.modify (fun _ _ => Iff.rfl) fun stored hsame => ?_
      obtain rfl := Option.some.inj (hstored.symm.trans hsame)
      have hwarm : replica.warm = true := by simpa using hcold
      exact (h _ _ hstored).madeReady hwarm (hhealthy replica hstored hwarm)

/-- A call that activates soundly keeps every replica in agreement with its history. -/
theorem sound_step {h : BackendHistory} (hs : h.Sound) {call : BackendCall}
    (hcondition : ActivatesSoundly h call) : (h.step call).Sound := by
  obtain ⟨backend, keys⟩ := h
  have hsound : SoundIn backend.replicas keys := hs
  have honReplica {change : SyntheticReplica → SyntheticReplica} (id : ReplicaId)
      (hchange : ∀ replica, backend.replicas.get? id.raw = some replica →
        TracksWarmth (id.raw ∈ keys) (change replica)) :
      SoundIn (Direct.onReplica backend id change).1.replicas keys :=
    hsound.modify (fun _ _ => Iff.rfl) hchange
  have hremove (id : ReplicaId) : SoundIn (Direct.removeReplica backend id).1.replicas keys := by
    unfold Direct.removeReplica
    cases backend.replicas.get? id.raw with
    | none => exact hsound
    | some _ => exact hsound.erase _
  cases call with
  | addReplica scope model version modelGeneration artifactGeneration =>
    exact hsound.addReplica scope model version modelGeneration artifactGeneration
  | removeReplica id => exact hremove id
  | loseReplica id => exact hremove id
  | setHealthy id healthy =>
    change SoundIn (Direct.setHealthy backend id healthy).1.replicas keys
    unfold Direct.setHealthy
    cases hstored : backend.replicas.get? id.raw with
    | none => exact hsound
    | some _ => exact honReplica id fun replica hreplica => (hsound _ _ hreplica).withHealth healthy
  | warm id => exact hsound.direct_warm id
  | activate id => exact hsound.direct_activate id hcondition
  | drain id =>
    change SoundIn (Direct.drain backend id).1.replicas keys
    unfold Direct.drain
    cases hstored : backend.replicas.get? id.raw with
    | none => exact hsound
    | some _ => exact honReplica id fun replica hreplica => (hsound _ _ hreplica).drained
  | evict id =>
    change SoundIn (Direct.evict backend id).1.replicas keys
    unfold Direct.evict
    cases backend.replicas.get? id.raw with
    | none => exact hsound
    | some _ => exact hsound.erase _
  | loseGenerationInScope model version generation scope => exact hsound.filter _
  | execute command => exact hsound.execute hcondition
  | setOwner worker boot => exact hsound
  | clearOwner => exact hsound
  | setAmbiguousCompletion enabled => exact hsound
  | setMaxReplicas value => exact hsound
  | setTick value => exact hsound

/-! ## Which activations are sound -/

/-- Where replicas agree with their histories, a sound activation makes only warmed replicas
ready. -/
theorem readiesWarmed_of_sound {h : BackendHistory} (hs : h.Sound) {call : BackendCall}
    (hcondition : ActivatesSoundly h call) : ReadiesWarmed h call := by
  cases call with
  | execute command =>
    intro hactivates key after hafter hready hbefore
    rw [execute_activates hactivates, OrdMap.get?_mapValues] at hafter
    obtain ⟨before, hstored, rfl⟩ := Option.map_eq_some_iff.mp hafter
    by_cases hactivatable : activatable command before = true
    · exact (hs key before hstored).1.mp (hcondition hactivates key before hstored hactivatable)
    · rw [if_neg hactivatable, hbefore before hstored] at hready
      cases hready
  | _ => trivial

/-- An activation that makes only warmed replicas ready, and leaves ready replicas healthy, is
sound. -/
theorem activatesSoundly_of_ready {h : BackendHistory} (hs : h.Sound) {call : BackendCall}
    (hreadies : ReadiesWarmed h call) (hhealthy : ReadyHealthy (h.step call)) :
    ActivatesSoundly h call := by
  cases call with
  | activate id =>
    intro replica hstored hwarm
    have hafter : (h.step (.activate id)).backend.replicas.get? id.raw = some replica.madeReady := by
      change (Direct.activate h.backend id).1.replicas.get? id.raw = some replica.madeReady
      unfold Direct.activate
      rw [hstored]
      simp [hwarm, Direct.onReplica, hstored]
    exact hhealthy id.raw replica.madeReady hafter rfl
  | execute command =>
    intro hactivates key replica hstored hactivatable
    by_cases hready : replica.ready = true
    · exact ((hs key replica hstored).2 hready).2
    · have hafter : (h.backend.execute command).1.replicas.get? key = some replica.activated := by
        rw [execute_activates hactivates, OrdMap.get?_mapValues, hstored, Option.map_some,
          if_pos hactivatable]
      refine (hs key replica hstored).1.mpr (hreadies hactivates key replica.activated hafter rfl
        fun before hbefore => ?_)
      obtain rfl := Option.some.inj (hstored.symm.trans hbefore)
      simpa using hready
  | _ => trivial

theorem sound_start : BackendHistory.Sound {} := by
  intro key replica hreplica
  cases hreplica

/-- A run of direct calls and commands on a new backend makes ready, by command, only what was
warmed before, and keeps every ready replica healthy, exactly when each direct activation of a
warm replica finds it healthy and each activating command finds its healthy replicas warm. -/
theorem readiness_kept_iff (calls : List BackendCall) :
    Runs.Along BackendHistory.step ReadiesWarmed {} calls ∧
        Runs.Always BackendHistory.step ReadyHealthy {} calls ↔
      Runs.Along BackendHistory.step ActivatesSoundly {} calls :=
  Runs.along_and_always_iff_along BackendHistory.step (fun _ hs => hs.readyHealthy)
    (fun _ _ hs hcondition => ⟨readiesWarmed_of_sound hs hcondition, sound_step hs hcondition⟩)
    (fun _ _ hs hreadies hhealthy => activatesSoundly_of_ready hs hreadies hhealthy) sound_start

/-- A cold replica is added. -/
def addCold : BackendCall := .addReplica ⟨1⟩ ⟨1⟩ ⟨1⟩ ⟨1⟩ ⟨1⟩

/-- A command that activates it. -/
def activateCold : CommandMessage :=
  { kind := .activate, scope := ⟨1⟩, model := ⟨1⟩, version := ⟨1⟩, modelGeneration := ⟨1⟩ }

/-- A command makes a cold replica ready, and a direct call makes an unhealthy one ready. -/
theorem readiness_not_kept :
    (¬ ∀ calls, Runs.Along BackendHistory.step ReadiesWarmed {} calls) ∧
      ¬ ∀ calls, Runs.Always BackendHistory.step ReadyHealthy {} calls := by
  constructor
  · intro hclaim
    obtain ⟨_, hreadies, _⟩ := hclaim [addCold, .execute activateCold]
    have hbefore : ∀ before ∈ (BackendHistory.step {} addCold).backend.replicas.get? 1,
        before.ready = false := by
      decide +kernel
    have hready : (((BackendHistory.step {} addCold).backend.execute
        activateCold).1.replicas.get? 1).any SyntheticReplica.ready = true := by
      decide +kernel
    obtain ⟨after, hafter, hisReady⟩ := (Option.any_eq_true _ _).mp hready
    have hwarmed : (1 : UInt64) ∈ (BackendHistory.step {} addCold).warmed :=
      hreadies rfl 1 after hafter hisReady hbefore
    revert hwarmed
    decide +kernel
  · intro hclaim
    have hhealthy := hclaim [addCold, .warm ⟨1⟩, .setHealthy ⟨1⟩ false, .activate ⟨1⟩]
      _ (List.prefix_refl _)
    have hready : ((Runs.run BackendHistory.step {}
        [addCold, .warm ⟨1⟩, .setHealthy ⟨1⟩ false, .activate ⟨1⟩]).backend.replicas.get? 1).any
          (fun replica => replica.ready && !replica.healthy) = true := by
      decide +kernel
    obtain ⟨replica, hreplica, hsick⟩ := (Option.any_eq_true _ _).mp hready
    rw [Bool.and_eq_true, Bool.not_eq_true'] at hsick
    have hwell := hhealthy 1 replica hreplica hsick.1
    rw [hsick.2] at hwell
    cases hwell

end LifecycleFabric
