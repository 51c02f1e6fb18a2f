import LifecycleFabric.EvidenceJournal
import LifecycleFabric.EvidenceLookup
import LifecycleFabric.Lib.Runs

/-!
# Histories of the evidence store

A history is a list of calls on a store that starts empty. What the store keeps is a journal
of the publications it accepted, so the accepted records that are still stored are, in their
order, the records of the journal.
-/

namespace LifecycleFabric

/-- A call that changes a store. -/
inductive EvidenceCall
  | publish (record : EvidenceRecord)
  | invalidateModelGeneration (version : ModelVersionId) (current : ModelGeneration)
  | invalidatePublisherBoot (boot : WorkerBootId)
  | removeKinds (kinds : List EvidenceKind)

namespace EvidenceStore

/-- The store after a call. -/
def call (store : EvidenceStore) : EvidenceCall → EvidenceStore
  | .publish record => (store.publish record).1
  | .invalidateModelGeneration version current => store.invalidateModelGeneration version current
  | .invalidatePublisherBoot boot => (store.invalidatePublisherBoot boot).1
  | .removeKinds kinds => store.removeKinds kinds

/-- The record a call publishes, where it is accepted. -/
def accepts (store : EvidenceStore) : EvidenceCall → List EvidenceRecord
  | .publish record => if (store.publish record).2.allowed then [record] else []
  | .invalidateModelGeneration _ _ | .invalidatePublisherBoot _ | .removeKinds _ => []

/-- The accepted publications of a history, in order. -/
def published : EvidenceStore → List EvidenceCall → List EvidenceRecord
  | _, [] => []
  | store, op :: ops => store.accepts op ++ published (store.call op) ops

/-- Whether a record lies in one of the buckets. -/
def stores (store : EvidenceStore) (record : EvidenceRecord) : Bool :=
  decide (record ∈ store.records.values.flatten)

variable {store : EvidenceStore} {capacity : ℕ} {j : Journal EvidenceRecord}
  {log : List EvidenceRecord}

theorem Represents.stores_iff (h : store.Represents capacity j) {record : EvidenceRecord} :
    store.stores record = true ↔ record ∈ j.kept := by
  rw [stores, decide_eq_true_eq, (perm_of_buckets h.buckets).mem_iff]

/-! ## Withdrawals by a call -/

/-- A change of a store that takes records out of it. -/
inductive Withdrawn (store : EvidenceStore) : EvidenceStore → Prop
  | revise (version : ModelVersionId) (current : ModelGeneration) :
      Withdrawn store (store.invalidateModelGeneration version current)
  | expire (boot : WorkerBootId) : Withdrawn store (store.invalidatePublisherBoot boot).1
  | removeKinds (kinds : List EvidenceKind) : Withdrawn store (store.removeKinds kinds)

/-- A withdrawal takes records out of the journal. -/
theorem Withdrawn.represents {store' : EvidenceStore} (hchange : Withdrawn store store')
    (h : store.Represents capacity j) :
    store'.watermark = store.watermark ∧
      ∃ test, store'.Represents capacity (j.withdraw test) := by
  cases hchange with
  | revise version current => exact ⟨rfl, _, h.dropWhere _⟩
  | expire boot =>
    unfold invalidatePublisherBoot
    split_ifs
    · refine ⟨rfl, fun _ => false, ?_⟩
      have hsame : j.withdraw (fun _ => false) = j := by simp [Journal.withdraw]
      rw [hsame]
      exact h
    · exact ⟨rfl, _, h.dropWhere _⟩
  | removeKinds kinds => exact ⟨rfl, _, h.removeKinds kinds⟩

/-! ## Histories -/

/-- The store keeps, in a journal, what is left of the records of a log. -/
structure Keeps (store : EvidenceStore) (capacity : ℕ) (log : List EvidenceRecord)
    (j : Journal EvidenceRecord) : Prop where
  represents : store.Represents capacity j
  holds : Journal.Holds capacity log j
  ordered : log.Pairwise fun a b => a.generation < b.generation
  marked : ∀ r ∈ log, r.generation ≤ store.watermark

theorem keeps_empty (capacity : ℕ) :
    ({ maxRecords := capacity } : EvidenceStore).Keeps capacity [] {} where
  represents := represents_empty capacity
  holds := .empty
  ordered := List.Pairwise.nil
  marked _ h := by cases h

theorem Keeps.withdrawn {store' : EvidenceStore} (h : store.Keeps capacity log j)
    (hchange : Withdrawn store store') : ∃ j', store'.Keeps capacity log j' := by
  obtain ⟨hmark, test, hrepresents⟩ := hchange.represents h.represents
  refine ⟨_, hrepresents, h.holds.withdraw test, h.ordered, ?_⟩
  rw [hmark]
  exact h.marked

/-- An accepted publication continues the log by a record of a later generation. -/
theorem Keeps.publish (h : store.Keeps capacity log j) (record : EvidenceRecord) :
    ∃ j', (store.publish record).1.Keeps capacity
      (log ++ store.accepts (.publish record)) j' := by
  unfold accepts
  dsimp only
  rcases h.represents.publish record with ⟨hrefused, hsame⟩ | ⟨haccepted, hpast, hmark, hnew⟩
  · rw [hsame, hrefused, if_neg Bool.false_ne_true, List.append_nil]
    exact ⟨j, h⟩
  · rw [haccepted, if_pos rfl]
    have hlater : ∀ r ∈ log, r.generation < record.generation :=
      fun r hr => (h.marked r hr).trans_lt hpast
    refine ⟨_, hnew, h.holds.append record, ?_, ?_⟩
    · refine List.pairwise_append.mpr ⟨h.ordered, List.pairwise_singleton _ _, ?_⟩
      intro r hr last hlast
      rw [List.mem_singleton.mp hlast]
      exact hlater r hr
    · rw [hmark]
      intro r hr
      rcases List.mem_append.mp hr with hold | hlast
      · exact (hlater r hold).le
      · rw [List.mem_singleton.mp hlast]

theorem Keeps.call (h : store.Keeps capacity log j) (op : EvidenceCall) :
    ∃ j', (store.call op).Keeps capacity (log ++ store.accepts op) j' := by
  cases op with
  | publish record => exact h.publish record
  | invalidateModelGeneration version current =>
    rw [accepts, List.append_nil]
    exact h.withdrawn (.revise version current)
  | invalidatePublisherBoot boot =>
    rw [accepts, List.append_nil]
    exact h.withdrawn (.expire boot)
  | removeKinds kinds =>
    rw [accepts, List.append_nil]
    exact h.withdrawn (.removeKinds kinds)

theorem Keeps.run (ops : List EvidenceCall) (h : store.Keeps capacity log j) :
    ∃ j', (Runs.run EvidenceStore.call store ops).Keeps capacity
      (log ++ store.published ops) j' := by
  induction ops generalizing store log j with
  | nil =>
    rw [published, List.append_nil]
    exact ⟨j, h⟩
  | cons op ops ih =>
    obtain ⟨j', h'⟩ := h.call op
    rw [Runs.run_cons, published, ← List.append_assoc]
    exact ih h'

/-- The store a history leads to. -/
def afterCalls (capacity : ℕ) (ops : List EvidenceCall) : EvidenceStore :=
  Runs.run call { maxRecords := capacity } ops

/-- What the calls of a history published, in order. -/
def publications (capacity : ℕ) (ops : List EvidenceCall) : List EvidenceRecord :=
  published { maxRecords := capacity } ops

/-- Every history keeps a journal of what it published. -/
theorem keeps_afterCalls (capacity : ℕ) (ops : List EvidenceCall) :
    ∃ j, (afterCalls capacity ops).Keeps capacity (publications capacity ops) j := by
  have hrun := (keeps_empty capacity).run ops
  rwa [List.nil_append] at hrun

/-- The published records that are still stored are those of the journal, in order. -/
theorem Keeps.filter_stores (h : store.Keeps capacity log j) :
    log.filter store.stores = j.kept := by
  refine Journal.filter_of_sublist h.holds.sublist ?_ fun r _ => h.represents.stores_iff
  exact h.ordered.imp fun hlt heq => (congrArg EvidenceRecord.generation heq).not_lt hlt

end EvidenceStore

end LifecycleFabric
