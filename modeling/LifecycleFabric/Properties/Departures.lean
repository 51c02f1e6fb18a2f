import LifecycleFabric.Properties.Sessions
import LifecycleFabric.Properties.Attempts

/-!
# Sessions that end

A session carries the identity its HELLO claims even when no registration was accepted on
it, and its end fences that identity. It is without effect exactly when the identity is not
that of a current worker boot.
-/

namespace LifecycleFabric

open EngineState Runs

variable {cfg : CoordinatorConfig} {limits : ProtocolLimits} {file : Option DurableState}
  {p : Process}

/-! ## What the sessions of a process carry -/

/-- A session without a HELLO carries no worker, a later one carries the epoch of the
engine, and an open one is registered when a registration was accepted on it. -/
structure Session.Sound (epoch : CoordinatorEpoch) (session : Session) : Prop where
  silent : session.helloSeen = false → session.worker.valid = false
  claimed : session.helloSeen = true → session.epoch = epoch
  registered : session.connected = true →
    (session.registered = true ↔ session.accepted ≠ [])

/-- Every session of a process is sound. -/
structure Process.Sound (p : Process) : Prop where
  engine : Coherent p.engine
  sessions : ∀ session ∈ p.sessions, session.Sound p.engine.epoch

theorem mem_of_mem_modify {α : Type*} {f : α → α} {l : List α} {i : ℕ} {x : α}
    (h : x ∈ l.modify i f) : x ∈ l ∨ ∃ y, l[i]? = some y ∧ x = f y := by
  obtain ⟨j, hj⟩ := List.mem_iff_getElem?.mp h
  rw [List.getElem?_modify, Option.map_eq_map, Option.map_eq_some_iff] at hj
  obtain ⟨y, hy, hx⟩ := hj
  by_cases hij : i = j
  · subst hij
    rw [if_pos rfl] at hx
    exact Or.inr ⟨y, hy, hx.symm⟩
  · rw [if_neg hij] at hx
    subst hx
    exact Or.inl (List.mem_of_getElem? hy)

namespace Process

/-- Frames change neither the coherence of the engine nor its epoch. -/
theorem ask_sound (hp : p.Sound) (op : Operation) : (p.ask cfg op).Sound := by
  unfold ask Coordinator.handle
  split_ifs with hcarried
  · constructor
    · exact (step_cases hp.engine op).coherent hp.engine
    · intro session hsession
      have hepoch : (EngineState.step cfg.engine p.engine op).epoch = p.engine.epoch :=
        step_epoch hp.engine hcarried
      dsimp only
      rw [hepoch]
      exact hp.sessions session hsession
  · exact hp

theorem setSession_sound (hp : p.Sound) {i : ℕ} {f : Session → Session}
    (hf : ∀ session, p.sessions[i]? = some session → (f session).Sound p.engine.epoch) :
    (p.setSession i f).Sound where
  engine := hp.engine
  sessions session hsession := by
    rcases mem_of_mem_modify hsession with hold | ⟨before, hbefore, rfl⟩
    · exact hp.sessions session hold
    · exact hf before hbefore

theorem closeSession_sound (hp : p.Sound) (i : ℕ) (reason : Text) :
    (p.closeSession cfg i reason).Sound := by
  unfold closeSession fenceSession
  cases p.sessions[i]? with
  | none => exact hp
  | some session =>
    dsimp only
    have hclosed : ∀ q : Process, q.Sound → (q.setSession i fun session =>
        { session with connected := false, registered := false }).Sound := by
      intro q hq
      refine setSession_sound hq ?_
      intro before hbefore
      obtain ⟨hsilent, hclaimed, _⟩ := hq.sessions before (List.mem_of_getElem? hbefore)
      exact ⟨hsilent, hclaimed, fun h => absurd h Bool.false_ne_true⟩
    split_ifs
    · exact hclosed _ (ask_sound hp _)
    · exact hclosed p hp

theorem handleHello_sound (hp : p.Sound) (i : ℕ) (session : Session) (hello : HelloMessage) :
    (p.handleHello cfg limits i session hello).Sound := by
  unfold handleHello
  split_ifs
  · exact hp
  · exact closeSession_sound hp i _
  · refine setSession_sound hp ?_
    intro before hbefore
    have hsound := hp.sessions before (List.mem_of_getElem? hbefore)
    exact ⟨fun h => absurd h Bool.true_eq_false.mp, fun _ => rfl, hsound.registered⟩

theorem settleSessions_sound (hp : p.Sound) {i : ℕ} {frame : Frame}
    (hseen : ∀ message, frame = .registerWorker message →
      ∀ session, p.sessions[i]? = some session → session.helloSeen = true) :
    (p.settleSessions i frame).Sound := by
  cases frame with
  | registerWorker message =>
    refine setSession_sound hp ?_
    intro before hbefore
    have hsound := hp.sessions before (List.mem_of_getElem? hbefore)
    have hhello := hseen message rfl before hbefore
    constructor
    · intro hsilent
      rw [hhello] at hsilent
      cases hsilent
    · exact hsound.claimed
    · intro _
      simp
  | fence worker boot reason =>
    constructor
    · exact hp.engine
    · intro session hsession
      obtain ⟨before, hbefore, rfl⟩ := List.mem_map.mp hsession
      have hsound := hp.sessions before hbefore
      split_ifs
      · exact ⟨hsound.silent, hsound.claimed, fun h => absurd h Bool.false_ne_true⟩
      · exact hsound
  | _ => exact hp

theorem handleFrame_sound (hp : p.Sound) {i : ℕ} {session : Session}
    (hsession : p.sessions[i]? = some session) (frame : Frame) :
    (p.handleFrame cfg limits i session frame).Sound := by
  unfold handleFrame
  split
  · exact handleHello_sound hp i session _
  · split
    · exact hp
    · rename_i op hop
      split
      · refine settleSessions_sound (ask_sound hp op) ?_
        rintro message rfl before hbefore
        have hsame : before = session := Option.some.inj (hbefore.symm.trans hsession)
        rw [hsame]
        unfold requested at hop
        by_contra hsilent
        simp [hsilent] at hop
      · exact ask_sound hp op

theorem handleFrames_sound (hp : p.Sound) (i : ℕ) (frames : List Frame) :
    (p.handleFrames cfg limits i frames).Sound := by
  induction frames generalizing p with
  | nil => exact hp
  | cons frame frames ih =>
    unfold handleFrames
    cases hsession : p.sessions[i]? with
    | none => exact hp
    | some session =>
      dsimp only
      split_ifs
      · exact hp
      · exact ih (handleFrame_sound hp hsession frame)

theorem serviceSession_sound (hp : p.Sound) (i : ℕ) (arrival : Arrival) :
    (p.serviceSession cfg limits i arrival).Sound := by
  unfold serviceSession
  split_ifs
  · exact hp
  · cases arrival with
    | closed => exact closeSession_sound hp i _
    | failed => exact closeSession_sound hp i _
    | data frames violation =>
      have hframes : (p.handleFrames cfg limits i frames).Sound := handleFrames_sound hp i frames
      dsimp only
      split_ifs
      · exact closeSession_sound hframes i _
      · exact hframes

theorem step_sound (hp : p.Sound) (event : ProcessEvent) : (step cfg limits p event).Sound := by
  cases event with
  | accept =>
    unfold step accept
    dsimp only
    split_ifs
    · exact hp
    · constructor
      · exact hp.engine
      · intro session hsession
        rcases List.mem_append.mp hsession with hold | hnew
        · exact hp.sessions session hold
        · rw [List.mem_singleton.mp hnew]
          exact ⟨fun _ => rfl, fun h => absurd h Bool.false_ne_true, fun _ => by simp⟩
  | service i arrival => exact serviceSession_sound hp i arrival
  | sweep =>
    constructor
    · exact hp.engine
    · intro session hsession
      exact hp.sessions session (List.mem_of_mem_filter hsession)
  | dispatch delivers =>
    obtain ⟨hcoordinator, hsessions⟩ := dispatchPending_kept delivers p
    unfold step
    constructor
    · rw [hcoordinator]
      exact hp.engine
    · rw [hcoordinator, hsessions]
      exact hp.sessions
  | persist => exact ⟨hp.engine, hp.sessions⟩

theorem Serving.sound (hp : Serving cfg limits file p) : p.Sound := by
  obtain ⟨first, hfirst, hreach⟩ := hp
  obtain ⟨coordinator, hcoordinator, rfl⟩ := Option.map_eq_some_iff.mp hfirst
  refine reachable_invariant (step cfg limits) (P := Process.Sound) ?_ ?_ hreach
  · intro later event hlater
    exact step_sound hlater event
  · exact ⟨(start_reachable hcoordinator).coherent, List.forall_mem_nil _⟩

end Process

/-! ## The end of a session -/

/-- Two engines agree on leases, evidence and attempts. -/
structure EngineState.SameWork (s s' : EngineState) : Prop where
  workers : s'.workers = s.workers
  evidence : s'.evidence = s.evidence
  attempts : s'.attempts = s.attempts

/-- What ends a session. Frames that precede a violation arrive first. -/
inductive Arrival.Ends : Arrival → Prop
  | closed : Ends .closed
  | failed : Ends .failed
  | violation : Ends (.data [] true)

namespace Process

/-- Whatever ends an open session, the session is closed. -/
theorem serviceSession_of_ends {i : ℕ} (hopen : p.isOpen i = true) {arrival : Arrival}
    (h : arrival.Ends) :
    ∃ reason, p.serviceSession cfg limits i arrival = p.closeSession cfg i reason := by
  unfold serviceSession
  simp only [hopen, Bool.not_true, Bool.false_eq_true, if_false]
  cases h with
  | closed => exact ⟨_, rfl⟩
  | failed => exact ⟨_, rfl⟩
  | violation =>
    refine ⟨text "framing violation", ?_⟩
    simp only [handleFrames, hopen, Bool.and_self, if_true]

/-- An open session on which no registration was accepted. -/
def Unregistered (p : Process) (i : ℕ) (session : Session) : Prop :=
  p.sessions[i]? = some session ∧ session.connected = true ∧ session.accepted = []

/-- The end of a session on which no registration was accepted leaves the work of the
engine as it was. -/
def LeavesQuietly (cfg : CoordinatorConfig) (limits : ProtocolLimits) (p : Process) (i : ℕ) :
    Prop :=
  ∀ session, p.Unregistered i session → ∀ arrival : Arrival, arrival.Ends →
    p.engine.SameWork (p.serviceSession cfg limits i arrival).engine

/-- A session on which no registration was accepted carries the identity of a current
worker boot. -/
def Impersonates (p : Process) (i : ℕ) : Prop :=
  ∃ session, p.Unregistered i session ∧ session.worker.valid = true ∧
    session.boot.valid = true ∧ p.engine.workerBootCurrent session.worker session.boot = true

end Process

/-- A fence of an epoch that is not older has an effect exactly on a current boot. -/
theorem fenceWorker_sameWork_iff {s : EngineState} {worker : WorkerId} {boot : WorkerBootId}
    {epoch : CoordinatorEpoch} (hboot : boot.valid = true) (hepoch : ¬epoch < s.epoch)
    (reason : Text) :
    s.SameWork (s.fenceWorker worker boot epoch reason).1 ↔
      s.workerBootCurrent worker boot = false := by
  rw [fenceWorker_eq]
  unfold workerBootCurrent
  cases hlease : s.workerOf worker with
  | none => exact iff_of_true ⟨rfl, rfl, rfl⟩ rfl
  | some lease =>
    dsimp only
    by_cases hcurrent : lease.fenced = false ∧ lease.boot = boot
    · obtain ⟨hactive, hsame⟩ := hcurrent
      rw [if_pos ⟨fun _ => hsame, fun _ => hepoch, hactive⟩]
      refine iff_of_false ?_ (by simp [hactive, hsame])
      intro hwork
      have hworkers := hwork.workers
      rw [fence_workers] at hworkers
      have hfenced : s.workerOf worker =
          some (lease.fencedAt s.bumpSequence.sequence reason) := by
        unfold workerOf at hlease ⊢
        rw [← hworkers, OrdMap.get?_modify_self, hlease]
        rfl
      have hlost : lease = lease.fencedAt s.bumpSequence.sequence reason :=
        Option.some.inj (hlease.symm.trans hfenced)
      rw [hlost] at hactive
      cases hactive
    · rw [if_neg]
      · refine iff_of_true ⟨rfl, rfl, rfl⟩ ?_
        rw [Bool.and_eq_false_iff, Bool.not_eq_false', decide_eq_false_iff_not]
        by_cases hfenced : lease.fenced = true
        · exact Or.inl hfenced
        · exact Or.inr fun hsame => hcurrent ⟨Bool.eq_false_iff.mpr hfenced, hsame⟩
      · rintro ⟨hsame, _, hactive⟩
        exact hcurrent ⟨hactive, hsame hboot⟩

/-- In every process a coordinator can come to, the end of a session on which no
registration was accepted leaves leases, evidence and attempts as they were exactly when
the identity its HELLO claimed is not that of a current worker boot. -/
theorem leaves_quietly_iff (hp : Process.Serving cfg limits file p) (i : ℕ) :
    p.LeavesQuietly cfg limits i ↔ ¬p.Impersonates i := by
  have hclosed : ∀ session, p.Unregistered i session → ∀ reason,
      p.engine.SameWork (p.closeSession cfg i reason).engine ↔
        ¬(session.worker.valid = true ∧ session.boot.valid = true ∧
          p.engine.workerBootCurrent session.worker session.boot = true) := by
    rintro session ⟨hsession, _, _⟩ reason
    rw [Process.closeSession_engine hsession]
    by_cases hnamed : session.worker.valid = true ∧ session.boot.valid = true
    · rw [if_pos hnamed]
      have hsound := hp.sound.sessions session (List.mem_of_getElem? hsession)
      have hseen : session.helloSeen = true := by
        by_contra hsilent
        have hnone := hsound.silent (Bool.eq_false_iff.mpr hsilent)
        rw [hnamed.1] at hnone
        cases hnone
      have hepoch : ¬session.epoch < p.engine.epoch := by
        rw [hsound.claimed hseen]
        exact lt_irrefl _
      rw [fenceWorker_sameWork_iff hnamed.2 hepoch]
      simp [hnamed]
    · rw [if_neg hnamed]
      refine iff_of_true ⟨rfl, rfl, rfl⟩ ?_
      rintro ⟨hworker, hboot, _⟩
      exact hnamed ⟨hworker, hboot⟩
  have hisOpen : ∀ session, p.Unregistered i session → p.isOpen i = true := by
    rintro session ⟨hsession, hopen, _⟩
    unfold Process.isOpen
    rw [hsession]
    exact hopen
  constructor
  · rintro hquiet ⟨session, hsession, hworker, hboot, hcurrent⟩
    have hwork := hquiet session hsession .closed .closed
    have hends : ∃ reason, p.serviceSession cfg limits i .closed = p.closeSession cfg i reason :=
      Process.serviceSession_of_ends (hisOpen session hsession) .closed
    obtain ⟨reason, hreason⟩ := hends
    rw [hreason] at hwork
    exact (hclosed session hsession reason).mp hwork ⟨hworker, hboot, hcurrent⟩
  · intro hhonest session hsession arrival hends
    have hcloses : ∃ reason, p.serviceSession cfg limits i arrival = p.closeSession cfg i reason :=
      Process.serviceSession_of_ends (hisOpen session hsession) hends
    obtain ⟨reason, hreason⟩ := hcloses
    rw [hreason]
    refine (hclosed session hsession reason).mpr ?_
    rintro ⟨hworker, hboot, hcurrent⟩
    exact hhonest ⟨session, hsession, hworker, hboot, hcurrent⟩

/-! ### A connection that claims the identity of a worker -/

/-- A worker registers on a first session, and a second one claims its identity. -/
def identityClaimed : List ProcessEvent :=
  [.accept,
    .service 0 (.data [.hello { worker := ⟨1⟩, boot := ⟨7⟩ },
      .registerWorker { worker := ⟨1⟩, boot := ⟨7⟩ }] false),
    .accept,
    .service 1 (.data [.hello { worker := ⟨1⟩, boot := ⟨7⟩ }] false)]

/-- The process in which the identity is claimed. -/
def claimedProcess : Process :=
  ({ engine := init {}, lastSavedSequence := (init {}).sequence } : Process).runEvents {} {}
    identityClaimed

/-- A worker registers on a first session, and a second one claims another boot of it. -/
def otherBootClaimed : List ProcessEvent :=
  [.accept,
    .service 0 (.data [.hello { worker := ⟨1⟩, boot := ⟨7⟩ },
      .registerWorker { worker := ⟨1⟩, boot := ⟨7⟩ }] false),
    .accept,
    .service 1 (.data [.hello { worker := ⟨1⟩, boot := ⟨8⟩ }] false)]

/-- The process in which the other boot is claimed. -/
def otherBootProcess : Process :=
  ({ engine := init {}, lastSavedSequence := (init {}).sequence } : Process).runEvents {} {}
    otherBootClaimed

theorem leaves_quietly_witness :
    otherBootProcess.Unregistered 1
        { worker := ⟨1⟩, boot := ⟨8⟩, epoch := ⟨1⟩, helloSeen := true } ∧
      otherBootProcess.LeavesQuietly {} {} 1 := by
  have hsession : otherBootProcess.sessions[1]? =
      some { worker := ⟨1⟩, boot := ⟨8⟩, epoch := ⟨1⟩, helloSeen := true } := by decide +kernel
  have hserving : Process.Serving {} {} none otherBootProcess :=
    ⟨_, rfl, otherBootClaimed, rfl⟩
  refine ⟨⟨hsession, rfl, rfl⟩, (leaves_quietly_iff hserving 1).mpr ?_⟩
  rintro ⟨session, hopen, _, _, hcurrent⟩
  obtain rfl := Option.some.inj (hsession.symm.trans hopen.1)
  revert hcurrent
  decide +kernel

/-- The second session never registered, and its end fences the worker of the first. -/
theorem claimed_identity_fences :
    Process.Serving {} {} none claimedProcess ∧
      ¬claimedProcess.LeavesQuietly {} {} 1 := by
  refine ⟨⟨_, rfl, identityClaimed, rfl⟩, ?_⟩
  intro hquiet
  have hwork := hquiet { worker := ⟨1⟩, boot := ⟨7⟩, epoch := ⟨1⟩, helloSeen := true }
    ⟨by decide +kernel, by decide, by decide⟩ .closed .closed
  have hworkers := congrArg
    (fun workers => (workers.get? 1).map WorkerLease.fenced) hwork.workers
  exact absurd hworkers (by decide +kernel)

end LifecycleFabric
