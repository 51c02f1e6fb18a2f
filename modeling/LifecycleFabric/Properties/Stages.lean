import LifecycleFabric.Engine.Reachable

/-!
# Stage histories

The history of a plan follows its list of stages as long as no state is imported: what it
advanced is a first part of the list, and each entry takes a later stage generation. A
stage generation is settled at most once in the runs whose operations settle only what is
still open.
-/

namespace LifecycleFabric

open EngineState

variable {c : EngineConfig} {s : EngineState} {strict : Prop} {plan plan' : RolloutPlan}

namespace RolloutPlan

/-- The stages a plan advanced, in the order of its history. -/
def advancedStages (plan : RolloutPlan) : List RolloutStageId :=
  (plan.history.filter fun entry => decide (entry.decision = .advanced)).map StageRecord.stage

/-- The stage generations a plan entered, in the order of its history. -/
def enteredGenerations (plan : RolloutPlan) : List RolloutStageGeneration :=
  (plan.history.filter fun entry => decide (entry.decision = .entered)).map StageRecord.generation

/-- The records that settle a stage generation. -/
def settling (plan : RolloutPlan) (generation : RolloutStageGeneration) : List StageRecord :=
  plan.history.filter fun entry =>
    decide (entry.generation = generation) && decide (entry.decision ≠ .entered)

/-- The records of failed stages. -/
def failures (plan : RolloutPlan) : List StageRecord :=
  plan.history.filter fun entry => decide (entry.decision = .failed)

/-- How many stages a plan has entered. -/
def stageNumber (plan : RolloutPlan) : ℕ := plan.currentStageGeneration.raw.toNat

/-! ## Where a plan stands in its list of stages -/

/-- What holds between the list of stages of a plan, its progress and its history. -/
structure InOrder (plan : RolloutPlan) : Prop where
  few : plan.stages.length < 2 ^ 64
  distinct : (plan.stages.map StageDefinition.id).Nodup
  index : plan.currentStageIndex < plan.stages.length
  entered : plan.stageEntered = true → plan.stageNumber = plan.currentStageIndex + 1
  begun : plan.live = true → plan.stageEntered = false → plan.stageNumber = 0
  recent : ∀ entry ∈ plan.history, entry.generation ≤ plan.currentStageGeneration
  entries : plan.enteredGenerations.Pairwise (· < ·)
  advancing : plan.stageAdvanced = true → plan.stageNumber = plan.currentStageIndex + 1
  advanced : plan.advancedStages =
    (plan.stages.map StageDefinition.id).take
      (plan.currentStageIndex + if plan.stageAdvanced then 1 else 0)

theorem Fresh.inOrder (h : plan.Fresh) : plan.InOrder where
  few := h.few
  distinct := h.distinct
  index := by
    rw [h.index]
    exact List.length_pos_iff.mpr h.stages
  entered hentered := by
    rw [h.entered] at hentered
    cases hentered
  begun _ _ := by
    rw [stageNumber, h.generation]
    rfl
  recent entry hentry := by
    rw [h.history] at hentry
    cases hentry
  entries := by
    rw [enteredGenerations, h.history]
    exact List.Pairwise.nil
  advancing hadvanced := by
    rw [stageAdvanced, h.history] at hadvanced
    cases hadvanced
  advanced := by
    have hopen : plan.stageAdvanced = false := by
      rw [stageAdvanced, h.history]
      rfl
    rw [advancedStages, h.history, h.index, hopen]
    rfl

/-- Records that neither enter nor advance a stage leave a plan where it stands. -/
theorem InOrder.extend (h : plan.InOrder) (added : List StageRecord)
    (hstages : plan'.stages = plan.stages)
    (hindex : plan'.currentStageIndex = plan.currentStageIndex)
    (hgeneration : plan'.currentStageGeneration = plan.currentStageGeneration)
    (hhistory : plan'.history = plan.history ++ added)
    (hadded : ∀ entry ∈ added, entry.generation = plan.currentStageGeneration ∧
      entry.decision ≠ .entered ∧ entry.decision ≠ .advanced)
    (hentered : plan'.stageEntered = true → plan.stageEntered = true)
    (hlive : plan'.live = true → plan.live = true ∧ plan'.stageEntered = plan.stageEntered) :
    plan'.InOrder := by
  have hnumber : plan'.stageNumber = plan.stageNumber := by
    rw [stageNumber, hgeneration, ← stageNumber]
  have hadvances : added.filter (fun entry => decide (entry.decision = .advanced)) = [] := by
    rw [List.filter_eq_nil_iff]
    intro entry hentry
    simpa using (hadded entry hentry).2.2
  have henters : added.filter (fun entry => decide (entry.decision = .entered)) = [] := by
    rw [List.filter_eq_nil_iff]
    intro entry hentry
    simpa using (hadded entry hentry).2.1
  have hstageAdvanced : plan'.stageAdvanced = plan.stageAdvanced := by
    have hnone : added.any (fun entry => decide (entry.generation = plan.currentStageGeneration) &&
        decide (entry.decision = .advanced)) = false := by
      rw [List.any_eq_false]
      intro entry hentry
      simp [(hadded entry hentry).2.2]
    rw [stageAdvanced, hhistory, hgeneration, List.any_append, hnone, Bool.or_false, ← stageAdvanced]
  constructor
  · rw [hstages]
    exact h.few
  · rw [hstages]
    exact h.distinct
  · rw [hstages, hindex]
    exact h.index
  · intro henter
    rw [hnumber, hindex]
    exact h.entered (hentered henter)
  · intro hlives hopen
    obtain ⟨hwas, hsame⟩ := hlive hlives
    rw [hnumber]
    exact h.begun hwas (hsame ▸ hopen)
  · intro entry hentry
    rw [hhistory, List.mem_append] at hentry
    rw [hgeneration]
    rcases hentry with hentry | hentry
    · exact h.recent entry hentry
    · exact (hadded entry hentry).1.le
  · rw [enteredGenerations, hhistory, List.filter_append, henters, List.append_nil]
    exact h.entries
  · rw [hstageAdvanced, hnumber, hindex]
    exact h.advancing
  · rw [advancedStages, hhistory, List.filter_append, hadvances, List.append_nil, hstages, hindex,
      hstageAdvanced]
    exact h.advanced

/-- Advancing the current stage appends it to what was advanced. -/
theorem InOrder.advance (h : plan.InOrder) (decided updated : Sequence)
    (hentered : plan.stageEntered = true) (hopen : plan.stageAdvanced = false) :
    (advancedPlan decided updated plan).InOrder := by
  have hadvanced := h.advanced
  rw [hopen, if_neg Bool.false_ne_true, Nat.add_zero] at hadvanced
  have hbound := h.index
  have hstage : plan.currentStage = plan.stages[plan.currentStageIndex] := by
    rw [currentStage, List.getElem?_eq_getElem hbound, Option.getD_some]
  have hnow : (advancedPlan decided updated plan).stageAdvanced = true :=
    stageAdvanced_advancedPlan decided updated plan
  refine ⟨h.few, h.distinct, h.index, h.entered, h.begun, ?_, ?_, fun _ => h.entered hentered, ?_⟩
  · intro entry hentry
    rcases List.mem_append.mp hentry with hentry | hentry
    · exact h.recent entry hentry
    · rw [List.mem_singleton.mp hentry]
      exact le_rfl
  · have hsame : (advancedPlan decided updated plan).enteredGenerations =
        plan.enteredGenerations := by
      simp [enteredGenerations, advancedPlan]
    rw [hsame]
    exact h.entries
  · have hlonger : (advancedPlan decided updated plan).advancedStages =
        plan.advancedStages ++ [plan.currentStage.id] := by
      simp [advancedStages, advancedPlan]
    have hlt : plan.currentStageIndex < (plan.stages.map StageDefinition.id).length := by
      rw [List.length_map]
      exact hbound
    have htake := List.take_concat_get' _ _ hlt
    rw [List.getElem_map] at htake
    rw [hlonger, hnow, hadvanced, hstage, if_pos rfl]
    exact htake

/-- Entering the stage after the ones that were advanced. -/
theorem InOrder.enter (h : plan.InOrder) (stage : StageDefinition) (updated : Sequence)
    {index : ℕ} (hindex : index < plan.stages.length) (hnumber : plan.stageNumber = index)
    (hadvanced : plan.advancedStages = (plan.stages.map StageDefinition.id).take index) :
    (enterStage stage updated { plan with currentStageIndex := index }).InOrder := by
  have hfew := h.few
  have hgrown : (enterStage stage updated { plan with currentStageIndex := index }).stageNumber =
      index + 1 := by
    have hnext := Ident.toNat_nextGeneration plan.currentStageGeneration
    rw [← stageNumber, hnumber] at hnext
    change plan.currentStageGeneration.nextGeneration.raw.toNat = _
    omega
  have hlater : plan.currentStageGeneration < plan.currentStageGeneration.nextGeneration := by
    rw [Ident.lt_iff_toNat]
    change plan.stageNumber < (enterStage stage updated
      { plan with currentStageIndex := index }).stageNumber
    omega
  have hopen : (enterStage stage updated
      { plan with currentStageIndex := index }).stageAdvanced = false := by
    rw [stageAdvanced, List.any_eq_false]
    intro entry hentry
    rcases List.mem_append.mp hentry with hentry | hentry
    · have hne : entry.generation ≠ plan.currentStageGeneration.nextGeneration :=
        ((h.recent entry hentry).trans_lt hlater).ne
      simp [enterStage, hne]
    · rw [List.mem_singleton.mp hentry]
      simp
  refine ⟨h.few, h.distinct, hindex, fun _ => hgrown, ?_, ?_, ?_, fun _ => hgrown, ?_⟩
  · intro _ hleft
    cases hleft
  · intro entry hentry
    rcases List.mem_append.mp hentry with hentry | hentry
    · exact (h.recent entry hentry).trans hlater.le
    · rw [List.mem_singleton.mp hentry]
      exact le_rfl
  · have hlonger : (enterStage stage updated
        { plan with currentStageIndex := index }).enteredGenerations =
          plan.enteredGenerations ++ [plan.currentStageGeneration.nextGeneration] := by
      simp [enteredGenerations, enterStage]
    rw [hlonger, List.pairwise_append]
    refine ⟨h.entries, List.pairwise_singleton _ _, ?_⟩
    intro before hbefore after hafter
    obtain ⟨entry, hentry, rfl⟩ := List.mem_map.mp hbefore
    rw [List.mem_singleton.mp hafter]
    exact (h.recent entry (List.mem_of_mem_filter hentry)).trans_lt hlater
  · have hsame : (enterStage stage updated
        { plan with currentStageIndex := index }).advancedStages = plan.advancedStages := by
      simp [advancedStages, enterStage]
    rw [hsame, hopen]
    exact hadvanced

/-- An advanced stage is a settled one. -/
theorem not_advanced_of_open (hopen : plan.stageSettled = false) :
    plan.stageAdvanced = false := by
  rw [stageSettled, List.any_eq_false] at hopen
  rw [stageAdvanced, List.any_eq_false]
  intro entry hentry hadvanced
  refine hopen entry hentry ?_
  rw [Bool.and_eq_true, decide_eq_true_eq, decide_eq_true_eq] at hadvanced ⊢
  exact ⟨hadvanced.1, by simp [hadvanced.2]⟩

end RolloutPlan

theorem PlanEdit.inOrder (h : PlanEdit strict plan plan') (hplan : plan.InOrder) :
    plan'.InOrder := by
  cases h with
  | note hstages hindex hgeneration hhistory _ _ hentered hlive =>
    refine hplan.extend [] hstages hindex hgeneration ?_ ?_ hentered hlive
    · rw [hhistory, List.append_nil]
    · intro entry hentry
      cases hentry
  | settle record hstages hindex hgeneration hhistory hrecord hsettles hadvances _ _ hentered hlive =>
    refine hplan.extend [record] hstages hindex hgeneration hhistory ?_ hentered ?_
    · intro entry hentry
      rw [List.mem_singleton.mp hentry]
      exact ⟨hrecord, hsettles, hadvances⟩
    · intro hlives
      rw [hlive] at hlives
      cases hlives
  | advance decided updated _ hentered _ hopen =>
    exact hplan.advance decided updated hentered (RolloutPlan.not_advanced_of_open hopen)
  | complete updated hlive hadvanced =>
    refine hplan.extend [] rfl rfl rfl ?_ ?_ ?_ ?_
    · rw [List.append_nil]
      rfl
    · intro entry hentry
      cases hentry
    · intro hentered
      cases hentered
    · intro hlives
      simp [RolloutPlan.live, completedPlan] at hlives
  | enter updated hlive hentered hindex =>
    have hnumber := hplan.begun hlive hentered
    have hopen : plan.stageAdvanced = false := by
      by_contra hadvanced
      have hlater := hplan.advancing (by simpa using hadvanced)
      omega
    have hadvanced := hplan.advanced
    rw [hopen, if_neg Bool.false_ne_true, Nat.add_zero] at hadvanced
    have hnow : plan.stageNumber = plan.currentStageIndex := by omega
    exact hplan.enter plan.firstStage updated hplan.index hnow hadvanced
  | next updated _ hentered hadvanced hnext =>
    have hfirst := hplan.advanced
    rw [hadvanced, if_pos rfl] at hfirst
    exact hplan.enter plan.nextStage updated hnext (hplan.entered hentered) hfirst

/-! ## How a plan moves on -/

/-- What a plan keeps as it moves on: its stages, the history so far, and stage generations
that never decrease, with a greater one for each stage entered. -/
structure Progressed (before after : RolloutPlan) : Prop where
  stages : after.stages = before.stages
  generation : before.currentStageGeneration ≤ after.currentStageGeneration
  history : ∃ added, after.history = before.history ++ added ∧
    ∀ entry ∈ added, entry.decision = .entered →
      before.currentStageGeneration < entry.generation ∧
        entry.generation ≤ after.currentStageGeneration

theorem Progressed.refl (plan : RolloutPlan) : Progressed plan plan := by
  refine ⟨rfl, le_rfl, [], ?_, ?_⟩
  · rw [List.append_nil]
  · intro entry hentry
    cases hentry

theorem Progressed.trans {plan'' : RolloutPlan} (h : Progressed plan plan')
    (h' : Progressed plan' plan'') : Progressed plan plan'' := by
  obtain ⟨added, hadded, hentered⟩ := h.history
  obtain ⟨added', hadded', hentered'⟩ := h'.history
  refine ⟨h'.stages.trans h.stages, h.generation.trans h'.generation, added ++ added', ?_, ?_⟩
  · rw [hadded', hadded, List.append_assoc]
  · intro entry hentry henters
    rcases List.mem_append.mp hentry with hentry | hentry
    · obtain ⟨hlater, hle⟩ := hentered entry hentry henters
      exact ⟨hlater, hle.trans h'.generation⟩
    · obtain ⟨hlater, hle⟩ := hentered' entry hentry henters
      exact ⟨h.generation.trans_lt hlater, hle⟩

/-- An edit that enters no stage moves a plan on. -/
theorem progressed_of_append (added : List StageRecord) (hstages : plan'.stages = plan.stages)
    (hgeneration : plan'.currentStageGeneration = plan.currentStageGeneration)
    (hhistory : plan'.history = plan.history ++ added)
    (hadded : ∀ entry ∈ added, entry.decision ≠ .entered) : Progressed plan plan' := by
  refine ⟨hstages, hgeneration.ge, added, hhistory, ?_⟩
  intro entry hentry henters
  exact absurd henters (hadded entry hentry)

/-- Below saturation, entering a stage moves a plan on. -/
theorem progressed_enterStage (stage : StageDefinition) (updated : Sequence) (index : ℕ)
    (hnumber : plan.stageNumber + 1 < 2 ^ 64) :
    Progressed plan (enterStage stage updated { plan with currentStageIndex := index }) := by
  have hlater : plan.currentStageGeneration < plan.currentStageGeneration.nextGeneration := by
    refine Ident.lt_nextGeneration ?_
    rw [Ident.saturated_iff_toNat, ← RolloutPlan.stageNumber]
    omega
  refine ⟨rfl, hlater.le, _, rfl, ?_⟩
  intro entry hentry _
  rw [List.mem_singleton.mp hentry]
  exact ⟨hlater, le_rfl⟩

theorem PlanEdit.progressed (h : PlanEdit strict plan plan') (hplan : plan.InOrder) :
    Progressed plan plan' := by
  have hfew := hplan.few
  have hindex := hplan.index
  cases h with
  | note hstages _ hgeneration hhistory =>
    refine progressed_of_append [] hstages hgeneration ?_ ?_
    · rw [hhistory, List.append_nil]
    · intro entry hentry
      cases hentry
  | settle record hstages _ hgeneration hhistory _ hsettles =>
    refine progressed_of_append _ hstages hgeneration hhistory ?_
    intro entry hentry
    rw [List.mem_singleton.mp hentry]
    exact hsettles
  | advance decided updated _ _ _ _ =>
    refine progressed_of_append _ rfl rfl rfl ?_
    intro entry hentry
    rw [List.mem_singleton.mp hentry]
    simp
  | complete updated _ _ =>
    refine progressed_of_append [] rfl rfl ?_ ?_
    · rw [List.append_nil]
      rfl
    · intro entry hentry
      cases hentry
  | enter updated hlive hentered _ =>
    have hnumber := hplan.begun hlive hentered
    exact progressed_enterStage plan.firstStage updated plan.currentStageIndex (by omega)
  | next updated _ hentered _ _ =>
    have hnumber := hplan.entered hentered
    exact progressed_enterStage plan.nextStage updated (plan.currentStageIndex + 1) (by omega)

/-- The edits of an operation move a plan in order on, and keep it in order. -/
theorem progressed_of_edits (h : Relation.ReflTransGen (PlanEdit strict) plan plan')
    (hplan : plan.InOrder) : plan'.InOrder ∧ Progressed plan plan' := by
  induction h with
  | refl => exact ⟨hplan, Progressed.refl plan⟩
  | tail _ hedit ih =>
    obtain ⟨hinOrder, hprogressed⟩ := ih
    exact ⟨hedit.inOrder hinOrder, hprogressed.trans (hedit.progressed hinOrder)⟩

/-! ## Plans along a run -/

/-- A step of a run without imports; a strict run settles only open stages. -/
def Native (c : EngineConfig) (strict : Prop) (s : EngineState) (op : Operation) : Prop :=
  op.isImport = false ∧ (strict → op.settlesOpen c s)

instance [Decidable strict] (op : Operation) : Decidable (Native c strict s op) :=
  inferInstanceAs (Decidable (_ ∧ _))

theorem edits_relax {strict' : Prop} (hstrict : strict' → strict)
    (h : Relation.ReflTransGen (PlanEdit strict) plan plan') :
    Relation.ReflTransGen (PlanEdit strict') plan plan' :=
  h.lift id fun _ _ hedit => PlanEdit.relax hstrict hedit

/-- A step keeps every stored plan and edits it. -/
theorem plan_edited (hs : Coherent s) {op : Operation} (hop : Native c strict s op) {key : UInt64}
    (hplan : s.rollouts.get? key = some plan) :
    ∃ plan', (step c s op).rollouts.get? key = some plan' ∧
      Relation.ReflTransGen (PlanEdit strict) plan plan' := by
  obtain ⟨hnative, hsettles⟩ := hop
  have hcase := step_cases (c := c) hs op
  generalize step c s op = s' at hcase ⊢
  cases hcase with
  | aside h =>
    obtain ⟨plan', hplan', hstep⟩ := h.plans key plan hplan
    exact ⟨plan', hplan', edits_relax (fun _ => trivial) hstep.edits⟩
  | chain p hp _ _ h =>
    obtain ⟨plan', hplan', hstep⟩ := h.plan_stands hplan
    exact ⟨plan', hplan', edits_relax (fun hstrict => hp (hsettles hstrict)) hstep.edits⟩
  | recover => cases hnative

/-- Every plan a step leaves was stored before it or is a fresh one, then edited. -/
theorem plan_origin (hs : Coherent s) {op : Operation} (hop : Native c strict s op) {key : UInt64}
    (hplan : (step c s op).rollouts.get? key = some plan') :
    ∃ plan, (s.rollouts.get? key = some plan ∨ plan.Fresh) ∧
      Relation.ReflTransGen (PlanEdit strict) plan plan' := by
  cases hstored : s.rollouts.get? key with
  | some plan =>
    obtain ⟨after, hafter, hedits⟩ := plan_edited hs hop hstored
    obtain rfl := Option.some.inj (hafter.symm.trans hplan)
    exact ⟨plan, Or.inl rfl, hedits⟩
  | none =>
    obtain ⟨hnative, _⟩ := hop
    have hcase := step_cases (c := c) hs op
    generalize step c s op = s' at hcase hplan
    cases hcase with
    | aside h =>
      obtain ⟨created, hfresh, _, hstep⟩ := h.newPlans key plan' hplan hstored
      exact ⟨created, Or.inr hfresh, edits_relax (fun _ => trivial) hstep.edits⟩
    | chain p _ _ _ h =>
      rw [h.plan_absent hstored] at hplan
      cases hplan
    | recover => cases hnative

/-- What fresh plans have and every edit keeps, all plans of a run have. -/
theorem plans_keep {P : RolloutPlan → Prop} (hfresh : ∀ plan, plan.Fresh → P plan)
    (hedit : ∀ plan plan', PlanEdit strict plan plan' → P plan → P plan') {ops : List Operation}
    (hops : Runs.Along (step c) (Native c strict) s ops) (hs : Coherent s)
    (hplans : ∀ key plan, s.rollouts.get? key = some plan → P plan) :
    Coherent (runOps c s ops) ∧
      ∀ key plan, (runOps c s ops).rollouts.get? key = some plan → P plan := by
  refine Runs.run_preserves (step c)
    (P := fun t => Coherent t ∧ ∀ key plan, t.rollouts.get? key = some plan → P plan) ?_ hops
    ⟨hs, hplans⟩
  rintro t op ⟨ht, hkept⟩ hop
  refine ⟨(step_cases ht op).coherent ht, ?_⟩
  intro key plan' hplan'
  obtain ⟨plan, horigin, hedits⟩ := plan_origin ht hop hplan'
  have hplan : P plan := by
    rcases horigin with hstored | hcreated
    · exact hkept key plan hstored
    · exact hfresh plan hcreated
  exact Runs.chain_preserves hedit hedits hplan

/-- A run keeps a stored plan and edits it. -/
theorem plan_follows {ops : List Operation}
    (hops : Runs.Along (step c) (Native c strict) s ops) (hs : Coherent s) {key : UInt64}
    (hplan : s.rollouts.get? key = some plan) :
    ∃ plan', (runOps c s ops).rollouts.get? key = some plan' ∧
      Relation.ReflTransGen (PlanEdit strict) plan plan' := by
  refine (Runs.run_preserves (step c)
    (P := fun t => Coherent t ∧ ∃ plan', t.rollouts.get? key = some plan' ∧
      Relation.ReflTransGen (PlanEdit strict) plan plan') ?_ hops ⟨hs, plan, hplan, .refl⟩).2
  rintro t op ⟨ht, mid, hmid, hedits⟩ hop
  obtain ⟨plan', hplan', hedits'⟩ := plan_edited ht hop hmid
  exact ⟨(step_cases ht op).coherent ht, plan', hplan', hedits.trans hedits'⟩

/-! ## The order of the stages -/

/-- The stages of the Advanced records are the first ones of the plan's list, none of them
twice, and each entry took a later stage generation than the one before. -/
structure StagesInOrder (plan : RolloutPlan) : Prop where
  advanced : plan.advancedStages <+: plan.stages.map StageDefinition.id
  once : plan.advancedStages.Nodup
  entries : plan.enteredGenerations.Pairwise (· < ·)
  current : ∀ generation ∈ plan.enteredGenerations, generation ≤ plan.currentStageGeneration

theorem RolloutPlan.InOrder.stagesInOrder (h : plan.InOrder) : StagesInOrder plan := by
  have hfirst : plan.advancedStages <+: plan.stages.map StageDefinition.id := by
    rw [h.advanced]
    exact List.take_prefix _ _
  refine ⟨hfirst, h.distinct.sublist hfirst.sublist, h.entries, ?_⟩
  intro generation hgeneration
  obtain ⟨entry, hentry, rfl⟩ := List.mem_map.mp hgeneration
  exact h.recent entry (List.mem_of_mem_filter hentry)

theorem along_native {ops : List Operation} (hops : ∀ op ∈ ops, op.isImport = false) :
    Runs.Along (step c) (Native c False) s ops := by
  have halong : Runs.Along (step c) (fun _ op => op.isImport = false) s ops :=
    Runs.along_of_forall (step c) hops
  exact halong.imp (step c) fun _ _ hop => ⟨hop, False.elim⟩

/-- In every run without imports the stages of a plan are advanced in the order of its
list, and whatever follows only appends to its history. -/
theorem stages_in_order {ops rest : List Operation}
    (hops : ∀ op ∈ ops ++ rest, op.isImport = false) {key : UInt64}
    (hplan : (runOps c (init c) ops).rollouts.get? key = some plan) :
    StagesInOrder plan ∧
      ∃ plan', (runOps c (init c) (ops ++ rest)).rollouts.get? key = some plan' ∧
        Progressed plan plan' := by
  obtain ⟨hbefore, hafter⟩ :=
    Runs.along_append (step c) |>.mp (along_native (c := c) (s := init c) hops)
  obtain ⟨hcoherent, hall⟩ := plans_keep (fun _ hfresh => hfresh.inOrder)
    (fun _ _ hedit => hedit.inOrder) hbefore (coherent_init c) (by
      intro key plan hnone
      cases hnone)
  have hinOrder := hall key plan hplan
  obtain ⟨plan', hplan', hedits⟩ := plan_follows hafter hcoherent hplan
  refine ⟨hinOrder.stagesInOrder, plan', ?_, (progressed_of_edits hedits hinOrder).2⟩
  rw [runOps, Runs.run_append]
  exact hplan'

/-- A version is promoted and rolled out in two stages. -/
def rollingOut : List Operation :=
  [.registerModel [109] [] .synthetic,
    .registerVersion
      { model := ⟨1⟩, label := [49]
        artifact := { setId := ⟨1⟩, generation := ⟨1⟩, digest := [97] } },
    .publishCompatibility ⟨1⟩ { key := [101] } .compatible [] .synthetic,
    .promote { model := ⟨1⟩, candidate := ⟨1⟩, scope := ⟨1⟩, environmentKey := [101] },
    .createRollout
      { model := ⟨1⟩, candidate := ⟨1⟩, rootScope := ⟨1⟩
        cohorts := [{ name := [99], scopes := [⟨1⟩] }, { name := [100], scopes := [⟨1⟩] }]
        stages := [{ name := [115], cohortIndices := [0] },
          { name := [116], cohortIndices := [1] }] },
    .beginRollout { rollout := ⟨1⟩ }]

/-- Both its stages are advanced. -/
def advancing : List Operation :=
  [.advanceStage { rollout := ⟨1⟩ }, .advanceStage { rollout := ⟨1⟩ }]

/-- The first rollout plan after a run. -/
def planAfter (ops : List Operation) : RolloutPlan := ((runOps {} (init {}) ops).rolloutOf ⟨1⟩).getD {}

theorem stages_in_order_witness :
    StagesInOrder (planAfter rollingOut) ∧
      ∃ plan', (runOps {} (init {}) (rollingOut ++ advancing)).rollouts.get? 1 = some plan' ∧
        Progressed (planAfter rollingOut) plan' :=
  stages_in_order (c := {}) (by simp [rollingOut, advancing, Operation.isImport])
    (by decide +kernel)

/-! ## One decision for each stage generation -/

/-- At most one record settles a stage generation, a plan does not both complete and fail,
and it fails at most once. -/
structure SettledOnce (plan : RolloutPlan) : Prop where
  once : ∀ generation, (plan.settling generation).length ≤ 1
  exclusive : ¬(plan.completed = true ∧ plan.failed = true)
  failures : plan.failures.length ≤ 1

/-- What keeps the decisions of a plan apart: a plan that ended by itself has settled its
current stage, and one that has not failed holds no failure. -/
structure RolloutPlan.Decided (plan : RolloutPlan) : Prop where
  once : ∀ generation, (plan.settling generation).length ≤ 1
  completed : plan.completed = true → plan.stageSettled = true
  failed : plan.failed = true → plan.stageSettled = true
  exclusive : ¬(plan.completed = true ∧ plan.failed = true)
  failures : plan.failures.length ≤ 1
  unfailed : plan.failed = false → plan.failures = []

theorem RolloutPlan.Decided.settledOnce (h : plan.Decided) : SettledOnce plan :=
  ⟨h.once, h.exclusive, h.failures⟩

theorem RolloutPlan.Fresh.decided (h : plan.Fresh) : plan.Decided := by
  have hsettling : ∀ generation, plan.settling generation = [] := by
    intro generation
    rw [settling, h.history]
    rfl
  have hfailures : plan.failures = [] := by
    rw [failures, h.history]
    rfl
  constructor
  · intro generation
    rw [hsettling]
    exact Nat.zero_le 1
  · intro hcompleted
    rw [h.completed] at hcompleted
    cases hcompleted
  · intro hfailed
    rw [h.failed] at hfailed
    cases hfailed
  · rintro ⟨hcompleted, _⟩
    rw [h.completed] at hcompleted
    cases hcompleted
  · rw [hfailures]
    exact Nat.zero_le 1
  · intro _
    exact hfailures

/-- No record settles a generation that is open. -/
theorem RolloutPlan.settling_of_open (hopen : plan.stageSettled = false) :
    plan.settling plan.currentStageGeneration = [] := by
  rw [stageSettled, List.any_eq_false] at hopen
  rw [settling, List.filter_eq_nil_iff]
  intro entry hentry
  exact hopen entry hentry

/-- A record that settles an open generation is the only one that does. -/
theorem settling_append {record : StageRecord} (h : plan.Decided)
    (hopen : plan.stageSettled = false) (hrecord : record.generation = plan.currentStageGeneration)
    (hhistory : plan'.history = plan.history ++ [record]) (generation : RolloutStageGeneration) :
    (plan'.settling generation).length ≤ 1 := by
  rw [RolloutPlan.settling, hhistory, List.filter_append, ← RolloutPlan.settling, List.length_append]
  have hlast := List.length_filter_le (fun entry : StageRecord =>
    decide (entry.generation = generation) && decide (entry.decision ≠ .entered)) [record]
  rw [List.length_singleton] at hlast
  by_cases hgeneration : generation = plan.currentStageGeneration
  · have hnone := congrArg List.length (RolloutPlan.settling_of_open hopen)
    rw [hgeneration] at hlast ⊢
    rw [List.length_nil] at hnone
    omega
  · have hother : [record].filter (fun entry =>
        decide (entry.generation = generation) && decide (entry.decision ≠ .entered)) = [] := by
      rw [List.filter_eq_nil_iff]
      intro entry hentry
      rw [List.mem_singleton.mp hentry, hrecord]
      simp [Ne.symm hgeneration]
    have honce := h.once generation
    rw [hother, List.length_nil]
    omega

/-- Records of entered stages settle nothing. -/
theorem RolloutPlan.Decided.of_entered (h : plan.Decided) (added : List StageRecord)
    (hhistory : plan'.history = plan.history ++ added)
    (hadded : ∀ entry ∈ added, entry.decision = .entered)
    (hcompleted : plan'.completed = true → plan'.stageSettled = true)
    (hfailed : plan'.failed = true → plan.failed = true ∧ plan'.stageSettled = true)
    (hexclusive : ¬(plan'.completed = true ∧ plan'.failed = true))
    (hunfailed : plan'.failed = false → plan.failed = false) : plan'.Decided := by
  have hsettling : ∀ generation, plan'.settling generation = plan.settling generation := by
    intro generation
    have hnone : added.filter (fun entry => decide (entry.generation = generation) &&
        decide (entry.decision ≠ .entered)) = [] := by
      rw [List.filter_eq_nil_iff]
      intro entry hentry
      simp [hadded entry hentry]
    rw [settling, hhistory, List.filter_append, hnone, List.append_nil, ← settling]
  have hfailures : plan'.failures = plan.failures := by
    have hnone : added.filter (fun entry => decide (entry.decision = .failed)) = [] := by
      rw [List.filter_eq_nil_iff]
      intro entry hentry
      simp [hadded entry hentry]
    rw [RolloutPlan.failures, hhistory, List.filter_append, hnone, List.append_nil,
      ← RolloutPlan.failures]
  constructor
  · intro generation
    rw [hsettling]
    exact h.once generation
  · exact hcompleted
  · intro hended
    exact (hfailed hended).2
  · exact hexclusive
  · rw [hfailures]
    exact h.failures
  · intro hgoes
    rw [hfailures]
    exact h.unfailed (hunfailed hgoes)

/-- A live plan has neither completed nor failed. -/
theorem RolloutPlan.not_ended_of_live (h : plan.live = true) :
    plan.completed = false ∧ plan.failed = false := by
  simp only [live, Bool.and_eq_true, Bool.not_eq_true'] at h
  exact h.1

theorem RolloutPlan.settled_of_advanced (h : plan.stageAdvanced = true) :
    plan.stageSettled = true := by
  by_contra hopen
  rw [Bool.not_eq_true] at hopen
  rw [not_advanced_of_open hopen] at h
  cases h

/-- Entering a stage of a live plan settles nothing. -/
theorem RolloutPlan.Decided.of_next (h : plan.Decided) (hlive : plan.live = true)
    {entry : StageRecord} (hhistory : plan'.history = plan.history ++ [entry])
    (hentry : entry.decision = .entered) (hcompleted : plan'.completed = plan.completed)
    (hfailed : plan'.failed = plan.failed) : plan'.Decided := by
  obtain ⟨hnotCompleted, hnotFailed⟩ := not_ended_of_live hlive
  refine h.of_entered _ hhistory ?_ ?_ ?_ ?_ ?_
  · intro added hadded
    rw [List.mem_singleton.mp hadded]
    exact hentry
  · intro hended
    rw [hcompleted, hnotCompleted] at hended
    cases hended
  · intro hended
    rw [hfailed, hnotFailed] at hended
    cases hended
  · rintro ⟨hended, _⟩
    rw [hcompleted, hnotCompleted] at hended
    cases hended
  · intro _
    exact hnotFailed

/-- A strict edit keeps the decisions of a plan apart. -/
theorem PlanEdit.decided (h : PlanEdit True plan plan') (hplan : plan.Decided) : plan'.Decided := by
  cases h with
  | note _ _ hgeneration hhistory hcompleted hfailed =>
    have hsettled : plan'.stageSettled = plan.stageSettled := by
      rw [RolloutPlan.stageSettled, hhistory, hgeneration, ← RolloutPlan.stageSettled]
    refine hplan.of_entered [] ?_ ?_ ?_ ?_ ?_ ?_
    · rw [hhistory, List.append_nil]
    · intro entry hentry
      cases hentry
    · rw [hcompleted, hsettled]
      exact hplan.completed
    · rw [hfailed, hsettled]
      exact fun hended => ⟨hended, hplan.failed hended⟩
    · rw [hcompleted, hfailed]
      exact hplan.exclusive
    · rw [hfailed]
      exact id
  | settle record _ _ hgeneration hhistory hrecord hsettles _ hcompleted hfailed _ _ hstrict =>
    have hopen := hstrict trivial
    have hnotCompleted : plan.completed = false := by
      by_contra hended
      rw [hplan.completed (by simpa using hended)] at hopen
      cases hopen
    have hnotFailed : plan.failed = false := by
      by_contra hended
      rw [hplan.failed (by simpa using hended)] at hopen
      cases hopen
    have hsettled : plan'.stageSettled = true := by
      rw [RolloutPlan.stageSettled, hhistory, hgeneration, List.any_append, Bool.or_eq_true]
      right
      simp [hrecord, hsettles]
    constructor
    · exact settling_append hplan hopen hrecord hhistory
    · intro _
      exact hsettled
    · intro _
      exact hsettled
    · rintro ⟨hended, _⟩
      rw [hcompleted, hnotCompleted] at hended
      cases hended
    · have hlast := List.length_filter_le
        (fun entry : StageRecord => decide (entry.decision = .failed)) [record]
      rw [RolloutPlan.failures, hhistory, List.filter_append, ← RolloutPlan.failures,
        hplan.unfailed hnotFailed, List.nil_append]
      exact hlast
    · intro hkept
      have hother : record.decision ≠ .failed := by
        intro hfails
        rw [hfailed (Or.inr hfails)] at hkept
        cases hkept
      rw [RolloutPlan.failures, hhistory, List.filter_append, ← RolloutPlan.failures,
        hplan.unfailed hnotFailed, List.nil_append]
      simp [hother]
  | advance decided updated hlive _ _ hopen =>
    obtain ⟨hnotCompleted, hnotFailed⟩ := RolloutPlan.not_ended_of_live hlive
    constructor
    · exact settling_append hplan hopen rfl rfl
    · intro _
      exact RolloutPlan.settled_of_advanced (stageAdvanced_advancedPlan _ _ plan)
    · intro _
      exact RolloutPlan.settled_of_advanced (stageAdvanced_advancedPlan _ _ plan)
    · rintro ⟨hended, _⟩
      rw [show plan.completed = true from hended] at hnotCompleted
      cases hnotCompleted
    · have hsame : (advancedPlan decided updated plan).failures = plan.failures := by
        simp [RolloutPlan.failures, advancedPlan]
      rw [hsame]
      exact hplan.failures
    · intro _
      have hsame : (advancedPlan decided updated plan).failures = plan.failures := by
        simp [RolloutPlan.failures, advancedPlan]
      rw [hsame]
      exact hplan.unfailed hnotFailed
  | complete updated hlive hadvanced =>
    obtain ⟨_, hnotFailed⟩ := RolloutPlan.not_ended_of_live hlive
    have hsettled := RolloutPlan.settled_of_advanced hadvanced
    refine hplan.of_entered [] ?_ ?_ ?_ ?_ ?_ ?_
    · rw [List.append_nil]
      rfl
    · intro entry hentry
      cases hentry
    · intro _
      exact hsettled
    · intro hended
      exact ⟨hended, hsettled⟩
    · rintro ⟨_, hended⟩
      rw [show plan.failed = true from hended] at hnotFailed
      cases hnotFailed
    · exact id
  | enter updated hlive _ _ => exact hplan.of_next hlive rfl rfl rfl rfl
  | next updated hlive _ _ _ => exact hplan.of_next hlive rfl rfl rfl rfl

/-- What an edit does not take back: a plan that completed or failed stays so. -/
theorem PlanEdit.ended (h : PlanEdit strict plan plan') :
    (plan.completed = true → plan'.completed = true) ∧
      (plan.failed = true → plan'.failed = true) := by
  cases h with
  | note _ _ _ _ hcompleted hfailed =>
    rw [hcompleted, hfailed]
    exact ⟨id, id⟩
  | settle _ _ _ _ _ _ _ _ hcompleted hfailed =>
    rw [hcompleted]
    exact ⟨id, fun hended => hfailed (Or.inl hended)⟩
  | advance => exact ⟨id, id⟩
  | complete => exact ⟨fun _ => rfl, id⟩
  | enter => exact ⟨id, id⟩
  | next => exact ⟨id, id⟩

theorem ended_of_edits (h : Relation.ReflTransGen (PlanEdit strict) plan plan') :
    (plan.completed = true → plan'.completed = true) ∧
      (plan.failed = true → plan'.failed = true) := by
  induction h with
  | refl => exact ⟨id, id⟩
  | tail _ hedit ih =>
    obtain ⟨hcompleted, hfailed⟩ := hedit.ended
    exact ⟨fun hended => hcompleted (ih.1 hended), fun hended => hfailed (ih.2 hended)⟩

/-- How a plan that ended by itself stays: completed and not failed, or failed and not
completed. -/
structure EndsForGood (before after : RolloutPlan) : Prop where
  completed : before.completed = true → after.completed = true ∧ after.failed = false
  failed : before.failed = true → after.failed = true ∧ after.completed = false

/-- In every run whose operations settle only open stages, no stage generation is settled
twice, and a plan that completed or failed stays so. -/
theorem stages_settled_once {ops rest : List Operation}
    (hops : Runs.Along (step c) (Native c True) (init c) (ops ++ rest)) {key : UInt64}
    (hplan : (runOps c (init c) ops).rollouts.get? key = some plan) :
    SettledOnce plan ∧
      ∃ plan', (runOps c (init c) (ops ++ rest)).rollouts.get? key = some plan' ∧
        SettledOnce plan' ∧ EndsForGood plan plan' := by
  obtain ⟨hbefore, hafter⟩ := (Runs.along_append (step c)).mp hops
  obtain ⟨hcoherent, hall⟩ := plans_keep (fun _ hfresh => hfresh.decided)
    (fun _ _ hedit => hedit.decided) hbefore (coherent_init c) (by
      intro key plan hnone
      cases hnone)
  have hdecided := hall key plan hplan
  obtain ⟨plan', hplan', hedits⟩ := plan_follows hafter hcoherent hplan
  have hdecided' : plan'.Decided :=
    Runs.chain_preserves (fun _ _ hedit => hedit.decided) hedits hdecided
  obtain ⟨hcompleted, hfailed⟩ := ended_of_edits hedits
  refine ⟨hdecided.settledOnce, plan', ?_, hdecided'.settledOnce, ?_, ?_⟩
  · rw [runOps, Runs.run_append]
    exact hplan'
  · intro hended
    have hnow := hcompleted hended
    refine ⟨hnow, ?_⟩
    by_contra hboth
    exact hdecided'.exclusive ⟨hnow, by simpa using hboth⟩
  · intro hended
    have hnow := hfailed hended
    refine ⟨hnow, ?_⟩
    by_contra hboth
    exact hdecided'.exclusive ⟨by simpa using hboth, hnow⟩

theorem stages_settled_once_witness :
    SettledOnce (planAfter rollingOut) ∧
      ∃ plan', (runOps {} (init {}) (rollingOut ++ advancing)).rollouts.get? 1 = some plan' ∧
        SettledOnce plan' ∧ EndsForGood (planAfter rollingOut) plan' :=
  stages_settled_once (c := {}) (by decide +kernel) (by decide +kernel)

/-- Superseding a plan that completed settles its last stage generation again. -/
theorem completed_plan_settled_again :
    (∀ op ∈ rollingOut ++ advancing ++ [.supersedeRollout ⟨1⟩ {} {} []], op.isImport = false) ∧
      ¬SettledOnce (planAfter (rollingOut ++ advancing ++ [.supersedeRollout ⟨1⟩ {} {} []])) := by
  refine ⟨by simp [rollingOut, advancing, Operation.isImport], ?_⟩
  intro hsettled
  have htwice : ((planAfter (rollingOut ++ advancing ++
      [.supersedeRollout ⟨1⟩ {} {} []])).settling ⟨2⟩).length = 2 := by
    decide +kernel
  have honce := hsettled.once ⟨2⟩
  omega

end LifecycleFabric
