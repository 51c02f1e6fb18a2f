import LifecycleFabric.Properties.Answers
import LifecycleFabric.Properties.Sessions
import LifecycleFabric.Replies

/-!
# Which requests are answered

A reply carries every reason of the decision, and RECONCILE a reason for every finding, while
its encoding is bounded. Of the decisions only those of the gates give more than one reason. So
a request is answered exactly as long as the faults it meets, or the findings, stay within the
limits; a longer reply is dropped, and nothing is sent in its place.
-/

namespace LifecycleFabric

open EngineState
open Wire (Reply ProtocolStatus encodeReply encodeFrame encodePayload putReply)
open Wire.Reply

variable {cfg : CoordinatorConfig} {limits : ProtocolLimits} {file : Option DurableState}
  {p : Process} {session : Session} {frame : Frame} {reply : Reply}

/-! ## Encoding -/

/-- A reply is encoded and framed exactly within the limits. -/
theorem encodeReplyFrame_ok_iff (limits : ProtocolLimits) (reply : Reply) :
    (∃ bytes, Process.encodeReplyFrame limits reply = .ok bytes) ↔
      reply.reasons.length ≤ limits.maxReasons ∧ reply.values.length ≤ limits.maxValues ∧
        (putReply reply).length ≤ limits.maxPayloadBytes := by
  unfold Process.encodeReplyFrame encodeReply
  by_cases hcounts : limits.maxReasons < reply.reasons.length ∨
      limits.maxValues < reply.values.length
  · rw [if_pos hcounts]
    constructor
    · rintro ⟨bytes, hbytes⟩
      cases hbytes
    · rintro ⟨hreasons, hvalues, _⟩
      omega
  · rw [if_neg hcounts]
    unfold encodePayload
    by_cases hpayload : limits.maxPayloadBytes < (putReply reply).length
    · rw [if_pos hpayload]
      constructor
      · rintro ⟨bytes, hbytes⟩
        cases hbytes
      · rintro ⟨_, _, hroom⟩
        omega
    · rw [if_neg hpayload]
      dsimp only
      unfold encodeFrame
      have htype : ¬(Wire.MessageType.reply.code.toNat = 0 ∨
          Wire.kMessageTypeCount < Wire.MessageType.reply.code.toNat) := by decide
      rw [if_neg hpayload, if_neg htype]
      constructor
      · intro _
        omega
      · intro _
        exact ⟨_, rfl⟩

/-- A reply with more reasons than the limits permit is dropped. -/
theorem sentReplies_eq_nil (h : p.reply cfg limits session frame = some reply)
    (hmany : limits.maxReasons < reply.reasons.length) :
    p.sentReplies cfg limits session frame = [] := by
  unfold Process.sentReplies
  rw [h]
  dsimp only
  cases hencode : Process.encodeReplyFrame limits reply with
  | error status => rfl
  | ok bytes =>
    have hfits := (encodeReplyFrame_ok_iff limits reply).mp ⟨bytes, hencode⟩
    omega

theorem length_sentReplies (h : p.reply cfg limits session frame = some reply) :
    (p.sentReplies cfg limits session frame).length = 1 ↔
      ∃ bytes, Process.encodeReplyFrame limits reply = .ok bytes := by
  unfold Process.sentReplies
  rw [h]
  dsimp only
  cases Process.encodeReplyFrame limits reply with
  | error status =>
    constructor
    · intro hlength
      cases hlength
    · rintro ⟨bytes, hbytes⟩
      cases hbytes
  | ok bytes => exact ⟨fun _ => ⟨bytes, rfl⟩, fun _ => rfl⟩

/-! ## Reasons -/

@[simp] theorem reasons_setText (key : String) (value : Text) (reply : Reply) :
    (setText key value reply).reasons = reply.reasons := rfl

@[simp] theorem reasons_setNumber (key : String) (value : ℕ) (reply : Reply) :
    (setNumber key value reply).reasons = reply.reasons := rfl

@[simp] theorem reasons_setId {tag : IdTag} (key : String) (value : Ident tag) (reply : Reply) :
    (setId key value reply).reasons = reply.reasons := rfl

/-- Values do not change the reasons of a decision. -/
theorem reasons_withValues (decision : Decision) {values : Reply → Reply}
    (hvalues : ∀ reply, (values reply).reasons = reply.reasons) :
    (withValues decision values).reasons = decision.reasons := by
  unfold withValues
  split
  · exact hvalues _
  · rfl

/-- The reply to an operation carries the reasons of its decision. -/
theorem reasons_of_requested {op : Operation} (hop : p.requested session frame = some op)
    (h : p.reply cfg limits session frame = some reply) :
    reply.reasons = (p.engine.perform cfg.engine op).2.reasons := by
  cases frame with
  | registerWorker message =>
    dsimp only [Process.requested] at hop
    split_ifs at hop with hseen
    obtain rfl := Option.some.inj hop
    obtain rfl := Option.some.inj h
    unfold Process.registrationReply
    rw [if_neg hseen]
    exact reasons_withValues _ fun _ => rfl
  | registerScope path =>
    obtain rfl := Option.some.inj hop
    obtain rfl := Option.some.inj h
    refine reasons_withValues _ ?_
    intro reply
    dsimp only
    split
    · rfl
    · rfl
  | hello _ | queryState _ _ | queryAuthority _ | reconcile | malformed | unhandled => cases hop
  | publishCompatibility _ _ _ _ _ | publishCompletion _ | fence _ _ _ | beginRollout _
  | advanceStage _ | failStage _ | retire _ | revalidate _ | supersedeRollout _ _ _ =>
    obtain rfl := Option.some.inj hop
    obtain rfl := Option.some.inj h
    rfl
  | registerModel _ _ _ | registerVersion _ | publishReadiness _ | publishHealth _
  | requestAttempt _ _ | promote _ | registerRolloutPlan _ | rollback _ =>
    obtain rfl := Option.some.inj hop
    obtain rfl := Option.some.inj h
    exact reasons_withValues _ fun _ => rfl

/-- A reason more, unless it is absent. -/
theorem length_foldl_add_le {α : Type*} (code : α → ReasonCode) (detail : α → Text) (l : List α)
    (reply : Reply) :
    (l.foldl (fun reply a => reply.add (code a) (detail a)) reply).reasons.length ≤
      reply.reasons.length + l.length := by
  induction l generalizing reply with
  | nil => exact le_refl _
  | cons a l ih =>
    have hadd : (reply.add (code a) (detail a)).reasons.length ≤ reply.reasons.length + 1 := by
      unfold Wire.Reply.add
      split
      · exact Nat.le_succ _
      · simp
    rw [List.foldl_cons, List.length_cons]
    have hrest := ih (reply.add (code a) (detail a))
    omega

/-- Adding reasons that are not absent. -/
theorem length_foldl_add {α : Type*} {code : α → ReasonCode} (detail : α → Text) {l : List α}
    (reply : Reply) (hl : ∀ a ∈ l, code a ≠ .none) :
    (l.foldl (fun reply a => reply.add (code a) (detail a)) reply).reasons.length =
      reply.reasons.length + l.length := by
  induction l generalizing reply with
  | nil => rfl
  | cons a l ih =>
    have hadd : (reply.add (code a) (detail a)).reasons.length = reply.reasons.length + 1 := by
      unfold Wire.Reply.add
      rw [if_neg (hl a List.mem_cons_self)]
      simp
    rw [List.foldl_cons, ih _ fun b hb => hl b (List.mem_cons_of_mem a hb), hadd, List.length_cons]
    omega

/-- Added details are short. -/
theorem short_foldl_add {α : Type*} (code : α → ReasonCode) (detail : α → Text) (l : List α)
    (hreply : ShortReasons maxDetail reply.reasons) :
    ShortReasons maxDetail
      (l.foldl (fun reply a => reply.add (code a) (detail a)) reply).reasons := by
  induction l generalizing reply with
  | nil => exact hreply
  | cons a l ih =>
    rw [List.foldl_cons]
    refine ih ?_
    unfold Wire.Reply.add
    split
    · exact hreply
    · exact hreply.append (shortReasons_singleton (List.length_take_le _ _))

/-! ### Findings -/

theorem checkPlanBindings_reason {s : EngineState} {plan : RolloutPlan} {reason : ReasonCode}
    {detail : Text} (h : s.checkPlanBindings plan = some (reason, detail)) : reason ≠ .none := by
  unfold checkPlanBindings at h
  repeat' split at h
  all_goals cases h <;> exact ReasonCode.noConfusion

theorem reason_of_mem_flatMap {α : Type*} {l : List α} {f : α → List Finding} {found : Finding}
    (h : found ∈ l.flatMap f) (hf : ∀ a, ∀ found ∈ f a, found.reason ≠ .none) :
    found.reason ≠ .none := by
  obtain ⟨a, _, hfound⟩ := List.mem_flatMap.mp h
  exact hf a found hfound

theorem reason_of_mem_singleton {kind : FindingKind} {reason : ReasonCode} {scope : ScopeId}
    {model : ModelId} {version : ModelVersionId} {generation : ModelGeneration} {detail : Text}
    {found : Finding} (h : found ∈ [finding kind reason scope model version generation detail])
    (hreason : reason ≠ .none) : found.reason ≠ .none := by
  rw [List.mem_singleton.mp h]
  exact hreason

/-- Every finding names a reason. -/
theorem reconcile_reason {s : EngineState} {input : ReconciliationInput} {found : Finding}
    (h : found ∈ s.reconcile input) : found.reason ≠ .none := by
  have hmem := Finding.mem_of_mem_sortUnique h
  simp only [retiredFindings, List.mem_append] at hmem
  rcases hmem with (((((h | h | h) | h) | h) | h) | h) | h
  · refine reason_of_mem_flatMap h ?_
    intro binding found hfound
    split_ifs at hfound
    · cases hfound
    · cases hfound
    · cases hfound
    · exact reason_of_mem_singleton hfound ReasonCode.noConfusion
  · refine reason_of_mem_flatMap h ?_
    intro observation found hfound
    split_ifs at hfound
    · exact reason_of_mem_singleton hfound ReasonCode.noConfusion
    · cases hfound
  · refine reason_of_mem_flatMap h ?_
    intro observation found hfound
    split_ifs at hfound
    · exact reason_of_mem_singleton hfound ReasonCode.noConfusion
    · cases hfound
  · refine reason_of_mem_flatMap h ?_
    intro plan found hfound
    split_ifs at hfound
    · cases hfound
    · exact reason_of_mem_singleton hfound ReasonCode.noConfusion
    · cases hfound
    · exact reason_of_mem_singleton hfound ReasonCode.noConfusion
  · refine reason_of_mem_flatMap h ?_
    intro observation found hfound
    split at hfound
    · cases hfound
    · split at hfound
      · cases hfound
      · split_ifs at hfound
        · cases hfound
        · exact reason_of_mem_singleton hfound ReasonCode.noConfusion
  · refine reason_of_mem_flatMap h ?_
    intro attempt found hfound
    split_ifs at hfound
    · exact reason_of_mem_singleton hfound ReasonCode.noConfusion
    · cases hfound
  · refine reason_of_mem_flatMap h ?_
    intro plan found hfound
    split at hfound
    · cases hfound
    · split at hfound
      · cases hfound
      · rename_i hstale
        exact reason_of_mem_singleton hfound (checkPlanBindings_reason hstale)
  · refine reason_of_mem_flatMap h ?_
    intro lease found hfound
    split_ifs at hfound
    · cases hfound
    · refine reason_of_mem_flatMap hfound ?_
      intro record found hfound
      split_ifs at hfound
      · cases hfound
      · exact reason_of_mem_singleton hfound ReasonCode.noConfusion

/-! ### Authority queries -/

theorem length_explainBinding (s : EngineState) (result : AuthorityQueryResult) (node : ScopeId)
    (exclusive : AuthorityBinding) (record : ModelVersionRecord) :
    (s.explainBinding result node exclusive record).reasons.length ≤ 1 := by
  have hnoted (key : String) (value : ℕ) (e : Explanation) :
      (noteNumber key value e).reasons = e.reasons := rfl
  have hwritten (key : String) (value : Text) (e : Explanation) :
      (noteText key value e).reasons = e.reasons := rfl
  unfold explainBinding
  dsimp only
  split_ifs
  all_goals simp [hnoted, hwritten]

/-- The explanation of an authority query gives one reason at most. -/
theorem length_resolveAuthority (s : EngineState) (chain : List ScopeId)
    (result : AuthorityQueryResult) (h : result.explanation.reasons = []) :
    (s.resolveAuthority chain result).explanation.reasons.length ≤ 1 := by
  induction chain generalizing result with
  | nil => exact le_refl 1
  | cons node rest ih =>
    have hvisited : (s.visitScope node result).explanation.reasons = [] := by
      unfold visitScope
      dsimp only
      split_ifs
      · exact h
      · exact h
    unfold resolveAuthority
    dsimp only
    split
    · exact le_refl 1
    · split
      · exact ih _ hvisited
      · split
        · exact le_refl 1
        · split
          · exact le_refl 1
          · exact length_explainBinding _ _ _ _ _

theorem length_queryAuthority (s : EngineState) (scope : ScopeId) :
    (s.queryAuthority scope).explanation.reasons.length ≤ 1 := by
  unfold queryAuthority
  split
  · exact le_refl 1
  · exact length_resolveAuthority _ _ _ rfl

/-! ## The number of reasons -/

theorem reasons_setFindings (findings : List Finding) (reply : Reply) :
    (Process.setFindings findings reply).reasons = reply.reasons := by
  unfold Process.setFindings
  induction (findings.take 16).zipIdx generalizing reply with
  | nil => rfl
  | cons e rest ih =>
    rw [List.foldl_cons, ih]
    rfl

theorem length_reconcileReply (p : Process) :
    p.reconcileReply.reasons.length = p.findings.length := by
  unfold Process.reconcileReply
  dsimp only
  have hreasons : ∀ found ∈ p.findings, found.reason ≠ .none := fun _ hfound =>
    reconcile_reason hfound
  rw [length_foldl_add Finding.detail _ hreasons, reasons_setFindings]
  exact Nat.zero_add _

/-- An authority query is answered with one reason at most. -/
theorem length_authorityReply (s : EngineState) (scope : ScopeId) :
    (s.authorityReply scope).reasons.length ≤ 1 := by
  have hexplained := length_queryAuthority s scope
  unfold authorityReply
  dsimp only
  refine (length_foldl_add_le Reason.code Reason.detail _ _).trans ?_
  split
  · exact (Nat.zero_add _).le.trans hexplained
  · exact (Nat.zero_add _).le.trans hexplained

theorem short_reconcileReply (p : Process) : ShortReasons maxDetail p.reconcileReply.reasons := by
  unfold Process.reconcileReply
  dsimp only
  apply short_foldl_add
  rw [reasons_setFindings]
  exact List.forall_mem_nil _

theorem short_authorityReply (s : EngineState) (scope : ScopeId) :
    ShortReasons maxDetail (s.authorityReply scope).reasons := by
  unfold authorityReply
  dsimp only
  apply short_foldl_add
  split
  · exact List.forall_mem_nil _
  · exact List.forall_mem_nil _

theorem reasons_stateReply (s : EngineState) (version : ModelVersionId) (scope : ScopeId) :
    (s.stateReply version scope).reasons = [] := by
  have hscope (reply : Reply) : (s.scopeValues scope reply).reasons = reply.reasons := by
    unfold scopeValues
    dsimp only
    split
    · rfl
    · rfl
  have hstore (reply : Reply) : (s.storeValues reply).reasons = reply.reasons := by
    simp only [storeValues, reasons_setNumber, reasons_setId]
  have hversion (record : ModelVersionRecord) (reply : Reply) :
      (versionValues record reply).reasons = reply.reasons := by
    simp only [versionValues, reasons_setText, reasons_setId]
  unfold stateReply
  dsimp only
  rw [hstore]
  split
  · rw [hscope]
    split
    · split
      · rfl
      · exact hversion _ _
    · rfl
  · split
    · split
      · rfl
      · exact hversion _ _
    · rfl

/-- A refusal of the coordinator itself gives one short reason. -/
theorem short_refused (outcome : OutcomeCode) (code : ReasonCode) (detail : Text) :
    (refused outcome code detail).reasons.length ≤ 1 ∧
      ShortReasons maxDetail (refused outcome code detail).reasons := by
  unfold refused Wire.Reply.add
  split
  · exact ⟨Nat.zero_le 1, List.forall_mem_nil _⟩
  · exact ⟨le_refl 1, shortReasons_singleton (List.length_take_le _ _)⟩

/-! ## Faults -/

/-- A frame that carries a request. -/
def Frame.isRequest : Frame → Bool
  | .malformed | .unhandled => false
  | _ => true

/-- The faults the coordinator itself finds: those of a reconciliation. -/
def Process.ownFaults (p : Process) : LifecycleFabric.Frame → ℕ
  | .reconcile => p.findings.length
  | _ => 0

/-- How many faults a request meets, on the process before it: the reasons of the gate where it
asks for an operation that has one, and the findings where it asks for a reconciliation. -/
def Process.faultCount (p : Process) (cfg : CoordinatorConfig) (session : Session)
    (frame : LifecycleFabric.Frame) : ℕ :=
  match p.requested session frame with
  | some op => (p.engine.gateReasons cfg.engine op).length
  | none => p.ownFaults frame

theorem faultCount_of_requested {op : Operation} (hop : p.requested session frame = some op) :
    p.faultCount cfg session frame = (p.engine.gateReasons cfg.engine op).length := by
  unfold Process.faultCount
  rw [hop]

theorem faultCount_of_not_requested (hop : p.requested session frame = none) :
    p.faultCount cfg session frame = p.ownFaults frame := by
  unfold Process.faultCount
  rw [hop]

/-- A reply has a reason for every fault, or one where there is no fault. -/
structure GivesFaults (bound faults : ℕ) (reply : Reply) : Prop where
  all : faults ≤ reply.reasons.length
  single : reply.reasons.length ≤ max 1 faults
  short : ShortReasons bound reply.reasons

theorem gives_of_single {bound : ℕ} (hsingle : reply.reasons.length ≤ 1)
    (hshort : ShortReasons maxDetail reply.reasons) (hle : maxDetail ≤ bound) :
    GivesFaults bound 0 reply :=
  ⟨Nat.zero_le _, hsingle, hshort.mono hle⟩

theorem carried_of_requested {op : Operation} (hop : p.requested session frame = some op) :
    op.carried = true := by
  cases frame with
  | registerWorker message =>
    dsimp only [Process.requested] at hop
    split_ifs at hop
    obtain rfl := Option.some.inj hop
    rfl
  | hello _ | queryState _ _ | queryAuthority _ | reconcile | malformed | unhandled => cases hop
  | _ =>
    obtain rfl := Option.some.inj hop
    rfl

/-- The reply to a request gives the faults it meets. -/
theorem reply_gives (h : p.reply cfg limits session frame = some reply) :
    GivesFaults (detailBound cfg.engine) (p.faultCount cfg session frame) reply := by
  have hle : maxDetail ≤ detailBound cfg.engine := maxReasonDetail_le_detailBound cfg.engine
  have hnone : ShortReasons maxDetail [] := List.forall_mem_nil _
  cases hop : p.requested session frame with
  | some op =>
    rw [faultCount_of_requested hop]
    have hanswers : AnswersGate (detailBound cfg.engine) (p.engine.gateReasons cfg.engine op)
        (p.engine.perform cfg.engine op).2 := perform_answers (carried_of_requested hop)
    have hreasons := reasons_of_requested hop h
    refine ⟨?_, ?_, ?_⟩
    · rw [hreasons]
      exact hanswers.length_le
    · rw [hreasons]
      exact hanswers.le_length
    · rw [hreasons]
      exact hanswers.short
  | none =>
    rw [faultCount_of_not_requested hop]
    cases frame with
    | hello message =>
      obtain rfl := Option.some.inj h
      unfold Process.helloReply
      split
      · exact gives_of_single (short_refused _ _ _).1 (short_refused _ _ _).2 hle
      · split
        · exact gives_of_single (short_refused _ _ _).1 (short_refused _ _ _).2 hle
        · exact gives_of_single (Nat.zero_le 1) hnone hle
    | registerWorker message =>
      obtain rfl := Option.some.inj h
      dsimp only [Process.requested] at hop
      split_ifs at hop with hseen
      unfold Process.registrationReply
      rw [if_pos hseen]
      exact gives_of_single (short_refused _ _ _).1 (short_refused _ _ _).2 hle
    | queryState version scope =>
      obtain rfl := Option.some.inj h
      have hreasons := reasons_stateReply p.engine version scope
      refine gives_of_single ?_ ?_ hle
      · rw [hreasons]
        exact Nat.zero_le 1
      · rw [hreasons]
        exact hnone
    | queryAuthority scope =>
      obtain rfl := Option.some.inj h
      exact gives_of_single (length_authorityReply p.engine scope)
        (short_authorityReply p.engine scope) hle
    | reconcile =>
      obtain rfl := Option.some.inj h
      have hlength := length_reconcileReply p
      exact ⟨hlength.ge, hlength.le.trans (le_max_right _ _), (short_reconcileReply p).mono hle⟩
    | malformed | unhandled => cases h
    | _ => cases hop

/-! ### Room for the values -/

/-- A reply with a few short values. -/
structure Slim (count : ℕ) (reply : Reply) : Prop where
  count : reply.values.length ≤ count
  short : ∀ value ∈ reply.values, value.1.length ≤ 32 ∧ value.2.length ≤ maxValue

theorem Slim.mono {count count' : ℕ} (h : Slim count reply) (hle : count ≤ count') :
    Slim count' reply :=
  ⟨h.count.trans hle, h.short⟩

theorem slim_of_values {count : ℕ} (h : reply.values = []) : Slim count reply := by
  constructor
  · rw [h]
    exact Nat.zero_le count
  · intro value hvalue
    rw [h] at hvalue
    cases hvalue

theorem Slim.set {count : ℕ} (h : Slim count reply) {key : Text} (hkey : key.length ≤ 32)
    (value : Text) : Slim (count + 1) (reply.set key value) := by
  have hvalue : (value.take maxValue).length ≤ maxValue := List.length_take_le _ _
  unfold Wire.Reply.set
  split_ifs
  · constructor
    · dsimp only
      rw [List.length_map]
      exact h.count.trans (Nat.le_succ _)
    · intro entry hentry
      obtain ⟨before, hbefore, rfl⟩ := List.mem_map.mp hentry
      split_ifs
      · exact ⟨hkey, hvalue⟩
      · exact h.short before hbefore
  · constructor
    · dsimp only
      rw [List.length_append, List.length_singleton]
      exact Nat.succ_le_succ h.count
    · intro entry hentry
      rcases List.mem_append.mp hentry with hold | hnew
      · exact h.short entry hold
      · rw [List.mem_singleton.mp hnew]
        exact ⟨hkey, hvalue⟩

theorem Slim.setText {count : ℕ} (h : Slim count reply) {key : String}
    (hkey : (text key).length ≤ 32) (value : Text) : Slim (count + 1) (setText key value reply) :=
  h.set hkey value

theorem Slim.setNumber {count : ℕ} (h : Slim count reply) {key : String}
    (hkey : (text key).length ≤ 32) (value : ℕ) : Slim (count + 1) (setNumber key value reply) :=
  h.set hkey _

theorem Slim.setId {count : ℕ} (h : Slim count reply) {tag : IdTag} {key : String}
    (hkey : (text key).length ≤ 32) (value : Ident tag) :
    Slim (count + 1) (setId key value reply) :=
  h.set hkey _

theorem slim_withValues (decision : Decision) {values : Reply → Reply} {count : ℕ}
    (hvalues : ∀ reply, Slim 0 reply → Slim count (values reply)) :
    Slim count (withValues decision values) := by
  unfold withValues
  split
  · exact hvalues _ (slim_of_values rfl)
  · exact slim_of_values rfl

theorem slim_setFindings {count : ℕ} (h : Slim count reply) (findings : List Finding) :
    Slim (count + 16) (Process.setFindings findings reply) := by
  have hkeys : ∀ e ∈ (findings.take 16).zipIdx, (text "finding_" ++ decimal e.2).length ≤ 32 := by
    intro e he
    have hindex : e.2 < 16 := by
      have hlt := (List.mem_zipIdx he).2.1
      have hlength := List.length_take_le 16 findings
      omega
    have hall : ∀ n < 16, (text "finding_" ++ decimal n).length ≤ 32 := by decide +kernel
    exact hall e.2 hindex
  have hlength : (findings.take 16).zipIdx.length ≤ 16 := by
    rw [List.length_zipIdx]
    exact List.length_take_le _ _
  unfold Process.setFindings
  generalize (findings.take 16).zipIdx = entries at hkeys hlength
  have hslim : Slim (count + entries.length) (entries.foldl (fun reply e =>
      reply.set (text "finding_" ++ decimal e.2) e.1.kind.toText) reply) := by
    clear hlength
    induction entries generalizing count reply with
    | nil => exact h
    | cons e entries ih =>
      rw [List.foldl_cons, List.length_cons, ← Nat.add_assoc, Nat.add_right_comm]
      exact ih (h.set (hkeys e List.mem_cons_self) _) fun e' he' =>
        hkeys e' (List.mem_cons_of_mem e he')
  exact hslim.mono (by omega)

/-- Adding reasons changes no values. -/
theorem values_foldl_add {α : Type*} (code : α → ReasonCode) (detail : α → Text) (l : List α)
    (reply : Reply) :
    (l.foldl (fun reply a => reply.add (code a) (detail a)) reply).values = reply.values := by
  induction l generalizing reply with
  | nil => rfl
  | cons a l ih =>
    rw [List.foldl_cons, ih]
    unfold Wire.Reply.add
    split
    · rfl
    · rfl

theorem Slim.foldl_add {count : ℕ} (h : Slim count reply) {α : Type*} (code : α → ReasonCode)
    (detail : α → Text) (l : List α) :
    Slim count (l.foldl (fun reply a => reply.add (code a) (detail a)) reply) := by
  constructor
  · rw [values_foldl_add]
    exact h.count
  · rw [values_foldl_add]
    exact h.short

theorem slim_reconcileReply (p : Process) : Slim 17 p.reconcileReply := by
  unfold Process.reconcileReply
  dsimp only
  refine Slim.foldl_add ?_ _ _ _
  have hstart (outcome : OutcomeCode) : Slim 0 ({ outcome } : Reply) := slim_of_values rfl
  exact slim_setFindings ((hstart _).setNumber (by decide) _) p.findings

theorem slim_authorityReply (s : EngineState) (scope : ScopeId) :
    Slim 14 (s.authorityReply scope) := by
  have hstart : Slim 0 ({ outcome := (s.queryAuthority scope).outcome } : Reply) :=
    slim_of_values rfl
  unfold authorityReply
  dsimp only
  refine Slim.foldl_add ?_ _ _ _
  rcases (s.queryAuthority scope).binding with _ | binding
  · refine Slim.mono ?_ (by omega : 5 ≤ 14)
    repeat' first
      | with_reducible exact hstart
      | with_reducible refine Slim.setId ?_ ?_ _
      | with_reducible refine Slim.setText ?_ ?_ _
      | with_reducible refine Slim.setNumber ?_ ?_ _
    all_goals decide
  · dsimp only
    repeat' first
      | with_reducible exact hstart
      | with_reducible refine Slim.setId ?_ ?_ _
      | with_reducible refine Slim.setText ?_ ?_ _
      | with_reducible refine Slim.setNumber ?_ ?_ _
    all_goals decide

theorem Slim.versionValues {count : ℕ} (h : Slim count reply) (record : ModelVersionRecord) :
    Slim (count + 14) (versionValues record reply) := by
  unfold EngineState.versionValues
  repeat' first
    | with_reducible exact h
    | with_reducible refine Slim.setId ?_ ?_ _
    | with_reducible refine Slim.setText ?_ ?_ _
  all_goals decide

theorem Slim.scopeValues {count : ℕ} (h : Slim count reply) (s : EngineState) (scope : ScopeId) :
    Slim (count + 4) (s.scopeValues scope reply) := by
  have hpath := h.setText (by decide : (text "scope").length ≤ 32) (s.scopes.pathOf scope)
  have hscope := hpath.setText (by decide : (text "authority_outcome").length ≤ 32)
    (s.queryAuthority scope).outcome.toText
  unfold EngineState.scopeValues
  dsimp only
  split
  · exact hscope.mono (by omega)
  · exact (hscope.setId (by decide) _).setId (by decide) _

theorem Slim.storeValues {count : ℕ} (h : Slim count reply) (s : EngineState) :
    Slim (count + 13) (s.storeValues reply) := by
  unfold EngineState.storeValues
  repeat' first
    | with_reducible exact h
    | with_reducible refine Slim.setId ?_ ?_ _
    | with_reducible refine Slim.setNumber ?_ ?_ _
  all_goals decide

theorem slim_stateReply (s : EngineState) (version : ModelVersionId) (scope : ScopeId) :
    Slim 34 (s.stateReply version scope) := by
  have hempty : Slim 0 ({ outcome := .ok } : Reply) := slim_of_values rfl
  have hstart := ((hempty.setId (by decide : (text "coordinator_epoch").length ≤ 32) s.epoch).setId
    (by decide : (text "sequence").length ≤ 32) s.sequence).setId
      (by decide : (text "snapshot_generation").length ≤ 32) s.snapshotGeneration
  unfold stateReply
  dsimp only
  refine Slim.storeValues ?_ s
  split
  · refine Slim.scopeValues ?_ s scope
    split
    · split
      · exact hstart.mono (by omega)
      · exact hstart.versionValues _
    · exact hstart.mono (by omega)
  · split
    · split
      · exact hstart.mono (by omega)
      · exact (hstart.versionValues _).mono (by omega)
    · exact hstart.mono (by omega)

theorem slim_evidenceReply (p : Process) (record : EvidenceRecord) :
    Slim 2 (p.evidenceReply record) := by
  unfold Process.evidenceReply
  refine slim_withValues _ ?_
  intro reply hreply
  exact (hreply.setId (by decide) _).setId (by decide) _

/-- A reply sets at most 34 values. -/
theorem slim_reply (h : p.reply cfg limits session frame = some reply) : Slim 34 reply := by
  cases frame with
  | malformed | unhandled => cases h
  | queryState version scope =>
    obtain rfl := Option.some.inj h
    exact slim_stateReply p.engine version scope
  | queryAuthority scope =>
    obtain rfl := Option.some.inj h
    exact (slim_authorityReply p.engine scope).mono (by omega)
  | reconcile =>
    obtain rfl := Option.some.inj h
    exact (slim_reconcileReply p).mono (by omega)
  | hello message =>
    obtain rfl := Option.some.inj h
    unfold Process.helloReply
    split
    · exact slim_of_values rfl
    · split
      · exact slim_of_values rfl
      · refine Slim.mono ?_ (by omega : 3 ≤ 34)
        have hnone : Slim 0 ({ outcome := .accepted } : Reply) := slim_of_values rfl
        exact ((hnone.setId (by decide) _).setNumber (by decide) _).setText (by decide) _
  | registerWorker message =>
    obtain rfl := Option.some.inj h
    unfold Process.registrationReply
    split
    · exact slim_of_values rfl
    · refine Slim.mono (slim_withValues _ ?_) (by omega : 3 ≤ 34)
      intro reply hreply
      exact ((hreply.setId (by decide) _).setId (by decide) _).setId (by decide) _
  | registerScope path =>
    obtain rfl := Option.some.inj h
    refine Slim.mono (slim_withValues _ ?_) (by omega : 4 ≤ 34)
    intro reply hreply
    have hscope (scope : ScopeId) :=
      (hreply.setId (by decide : (text "scope_id").length ≤ 32) scope).setText
        (by decide : (text "scope_path").length ≤ 32) path
    dsimp only
    split
    · exact (hscope _).mono (by omega)
    · exact ((hscope _).setId (by decide) _).setNumber (by decide) _
  | registerModel _ _ _ | registerVersion _ | requestAttempt _ _ =>
    obtain rfl := Option.some.inj h
    refine Slim.mono (slim_withValues _ ?_) (by omega : 1 ≤ 34)
    intro reply hreply
    exact hreply.setId (by decide) _
  | publishReadiness _ | publishHealth _ =>
    obtain rfl := Option.some.inj h
    exact (slim_evidenceReply p _).mono (by omega)
  | promote _ | registerRolloutPlan _ | rollback _ =>
    obtain rfl := Option.some.inj h
    refine Slim.mono (slim_withValues _ ?_) (by omega : 2 ≤ 34)
    intro reply hreply
    exact (hreply.setId (by decide) _).setId (by decide) _
  | _ =>
    obtain rfl := Option.some.inj h
    exact slim_of_values rfl

/-- The encoding of a slim reply whose details are bounded. -/
theorem Slim.length_le {count bound : ℕ} (h : Slim count reply)
    (hreasons : ∀ reason ∈ reply.reasons, reason.detail.length ≤ bound) :
    (putReply reply).length ≤ 10 + reply.reasons.length * (6 + bound) + count * 296 := by
  have hreasonSize : (ByteCodec.putCounted Wire.putReason reply.reasons).length ≤
      4 + reply.reasons.length * (6 + bound) := by
    refine ByteCodec.length_putCounted_le ?_
    intro reason hreason
    have hdetail := hreasons reason hreason
    simp only [Wire.putReason, Wire.putReasonCode, List.flatten_cons, List.flatten_nil,
      List.length_append, List.length_nil, ByteCodec.length_word, Wire.length_putStr]
    omega
  have hvalueSize : (ByteCodec.putCounted Wire.putValue reply.values).length ≤
      4 + reply.values.length * 296 := by
    refine ByteCodec.length_putCounted_le ?_
    intro value hvalue
    obtain ⟨hkey, hentry⟩ := h.short value hvalue
    rw [maxValue] at hentry
    simp only [Wire.putValue, List.flatten_cons, List.flatten_nil, List.length_append,
      List.length_nil, Wire.length_putStr]
    omega
  have hcount := Nat.mul_le_mul_right 296 h.count
  simp only [putReply, List.flatten_cons, List.flatten_nil, List.length_append, List.length_nil,
    ByteCodec.length_word]
  omega

/-! ## Answered requests -/

/-- Limits with room for one reason, for the values of every reply, and for as many reasons as
they permit. -/
structure ProtocolLimits.HasReplyRoom (limits : ProtocolLimits) (cfg : EngineConfig) : Prop where
  reason : 1 ≤ limits.maxReasons
  values : 34 ≤ limits.maxValues
  payload :
    10 + limits.maxReasons * (6 + detailBound cfg) + 34 * 296 ≤ limits.maxPayloadBytes

theorem replied_of_room (h : p.reply cfg limits session frame = some reply)
    (hroom : limits.HasReplyRoom cfg.engine)
    (hfew : p.faultCount cfg session frame ≤ limits.maxReasons) :
    (p.sentReplies cfg limits session frame).length = 1 := by
  have hgives := reply_gives h
  have hslim := slim_reply h
  have hsize := hslim.length_le hgives.short
  have hcount : reply.reasons.length ≤ limits.maxReasons :=
    hgives.single.trans (max_le hroom.reason hfew)
  have hreasons := Nat.mul_le_mul_right (6 + detailBound cfg.engine) hcount
  have hpayload := hroom.payload
  rw [length_sentReplies h, encodeReplyFrame_ok_iff]
  exact ⟨hcount, hslim.count.trans hroom.values, by omega⟩

theorem exists_reply (p : Process) (session : Session) (hframe : frame.isRequest = true) :
    ∃ reply, p.reply cfg limits session frame = some reply := by
  cases frame with
  | malformed | unhandled => cases hframe
  | _ => exact ⟨_, rfl⟩

/-- A request that meets more faults than the limits permit reasons is not answered. Where the
limits have room for replies, it is answered by exactly one REPLY frame exactly when it meets no
more faults than that. -/
theorem replied_once_iff (p : Process) (session : Session) (hframe : frame.isRequest = true) :
    (limits.maxReasons < p.faultCount cfg session frame →
      p.sentReplies cfg limits session frame = []) ∧
    (limits.HasReplyRoom cfg.engine →
      ((p.sentReplies cfg limits session frame).length = 1 ↔
        p.faultCount cfg session frame ≤ limits.maxReasons)) := by
  obtain ⟨reply, hreply⟩ : ∃ reply, p.reply cfg limits session frame = some reply :=
    exists_reply p session hframe
  have hdropped (hmany : limits.maxReasons < p.faultCount cfg session frame) :
      p.sentReplies cfg limits session frame = [] :=
    sentReplies_eq_nil hreply (hmany.trans_le (reply_gives hreply).all)
  refine ⟨hdropped, fun hroom => ⟨fun hsent => ?_, replied_of_room hreply hroom⟩⟩
  by_contra hmany
  rw [hdropped (not_le.mp hmany)] at hsent
  cases hsent

/-! ### Attempts in flight -/

/-- A worker of a coordinator asks for one attempt after another. -/
def attemptsRequested (count : ℕ) : List ProcessEvent :=
  [.accept,
    .service 0 (.data ([.hello { worker := ⟨1⟩, boot := ⟨7⟩ },
      .registerWorker { worker := ⟨1⟩, boot := ⟨7⟩ },
      .registerModel [109] [] .synthetic,
      .registerVersion
        { model := ⟨1⟩, label := [49]
          artifact := { setId := ⟨1⟩, generation := ⟨1⟩, digest := [97] } }] ++
      List.replicate count (.requestAttempt .warm { model := ⟨1⟩, version := ⟨1⟩ })) false)]

/-- The process with the attempts in flight. -/
def requestedProcess (count : ℕ) : Process :=
  ({ engine := init {}, lastSavedSequence := (init {}).sequence } : Process).runEvents {} {}
    (attemptsRequested count)

/-- The session of the worker. -/
def requestedSession (count : ℕ) : Session := (requestedProcess count).sessions.headD {}

theorem replied_once_witness :
    ((requestedProcess 2).sentReplies {} {} (requestedSession 2) .reconcile).length = 1 ∧
      (requestedProcess 2).sentReplies {} { maxReasons := 1 } (requestedSession 2) .reconcile =
        [] := by
  have hfindings : (requestedProcess 2).findings.length = 2 := by decide +kernel
  have hroom : ({} : ProtocolLimits).HasReplyRoom {} := ⟨by decide, by decide, by decide⟩
  have hmany : ({ maxReasons := 1 } : ProtocolLimits).maxReasons <
      (requestedProcess 2).faultCount {} (requestedSession 2) .reconcile :=
    lt_of_lt_of_eq (by decide) hfindings.symm
  constructor
  · refine ((replied_once_iff (requestedProcess 2) (requestedSession 2) rfl).2 hroom).mpr ?_
    exact hfindings.le.trans (by decide)
  · exact (replied_once_iff (requestedProcess 2) (requestedSession 2) rfl).1 hmany

/-- With 33 attempts in flight, RECONCILE is not answered. -/
theorem reconcile_unanswered :
    Process.Serving {} {} none (requestedProcess 33) ∧
      (requestedProcess 33).sessions[0]? = some (requestedSession 33) ∧
      (requestedSession 33).connected = true ∧
      ((requestedProcess 33).reply {} {} (requestedSession 33) .reconcile).isSome = true ∧
      (requestedProcess 33).sentReplies {} {} (requestedSession 33) .reconcile = [] := by
  refine ⟨⟨_, rfl, attemptsRequested 33, rfl⟩, by decide +kernel, by decide +kernel, rfl, ?_⟩
  have hfindings : (requestedProcess 33).findings.length = 33 := by decide +kernel
  have hreasons : (requestedProcess 33).reconcileReply.reasons.length = 33 :=
    (length_reconcileReply _).trans hfindings
  refine sentReplies_eq_nil rfl ?_
  rw [hreasons]
  decide

end LifecycleFabric
