import LifecycleFabric.Wire.Bounds

/-!
# Messages

What is written of a message within the bounds of its reader is read back, whole. The writers
bound the payload alone, so they also write messages that their reader refuses.
-/

namespace LifecycleFabric.Wire

open ByteCodec

variable {limits : ProtocolLimits} {kind : MessageKind} {message : kind.Payload} {bytes : Bytes}

theorem decodeOr_eq {α : Type} {reader : Reader α} {value : α}
    (h : whole reader bytes = some value) : decodeOr reader bytes = .ok value := by
  rw [decodeOr, h]

theorem decodeOr_eq_error {α : Type} {reader : Reader α} (h : whole reader bytes = none) :
    decodeOr reader bytes = .error .decodeFailure := by
  rw [decodeOr, h]

theorem eq_of_encodePayload {payload : Bytes} (h : encodePayload limits payload = .ok bytes) :
    bytes = payload := by
  rw [encodePayload] at h
  split_ifs at h
  exact (Except.ok.inj h).symm

namespace MessageKind

/-- An encoder returns what it wrote. -/
theorem eq_put_of_encode (h : kind.encode limits message = .ok bytes) :
    bytes = kind.put message := by
  cases kind with
  | reply =>
    change encodeReply limits message = .ok bytes at h
    unfold encodeReply at h
    split_ifs at h
    exact eq_of_encodePayload h
  | _ => exact eq_of_encodePayload h

theorem decode_put (hproper : kind.Proper message) (hwithin : kind.Within limits message) :
    kind.decode limits (kind.put message) = .ok (kind.carried message) :=
  decodeOr_eq ((reads hproper).whole_eq hwithin)

theorem decode_put_eq_error (hproper : kind.Proper message)
    (hwithin : ¬kind.Within limits message) (hlength : (kind.put message).length < 2 ^ 32) :
    kind.decode limits (kind.put message) = .error .decodeFailure :=
  decodeOr_eq_error ((reads hproper).whole_eq_none hwithin hlength)

/-- A list is mapped to itself when each of its entries is. -/
theorem map_eq_self_iff {α : Type} {f : α → α} {l : List α} : l.map f = l ↔ ∀ a ∈ l, f a = a := by
  have hid : l.map f = l.map id ↔ ∀ a ∈ l, f a = id a := List.map_inj_left
  rwa [List.map_id] at hid

theorem carriedIndex_eq_iff {index : ℕ} : carriedIndex index = index ↔ index < 2 ^ 32 :=
  Nat.mod_eq_iff_lt (by decide)

theorem carriedStage_eq_iff {s : StageSpec} :
    carriedStage s = s ↔ ∀ i ∈ s.cohortIndices, i < 2 ^ 32 := by
  have hindices : s.cohortIndices.map carriedIndex = s.cohortIndices ↔
      ∀ i ∈ s.cohortIndices, i < 2 ^ 32 := by
    rw [map_eq_self_iff]
    exact forall₂_congr fun _ _ => carriedIndex_eq_iff
  rw [← hindices]
  constructor
  · intro hcarried
    exact congrArg StageSpec.cohortIndices hcarried
  · intro hsame
    rw [carriedStage, hsame]

/-- A message is read back unchanged exactly when its cohort indices fit in 32 bits. -/
theorem carried_eq_iff : kind.carried message = message ↔ kind.Indexed message := by
  cases kind with
  | rolloutPlan =>
    change RolloutPlanRequest at message
    have hstages : message.stages.map carriedStage = message.stages ↔
        ∀ s ∈ message.stages, ∀ i ∈ s.cohortIndices, i < 2 ^ 32 := by
      rw [map_eq_self_iff]
      exact forall₂_congr fun _ _ => carriedStage_eq_iff
    change carriedRolloutPlan message = message ↔ _
    refine Iff.trans ?_ hstages
    constructor
    · intro hcarried
      exact congrArg RolloutPlanRequest.stages hcarried
    · intro hsame
      rw [carriedRolloutPlan, hsame]
  | _ => exact iff_of_true rfl trivial

end MessageKind

/-- What is encoded of a message is read back field for field, and read whole, exactly when the
message is within the bounds of its reader and its cohort indices fit in 32 bits: they are written
as such, and an index that does not fit is read back as its low bits. -/
theorem messages_round_trip_iff (limits : ProtocolLimits) (kind : MessageKind)
    (message : kind.Payload) (bytes : Bytes) (hproper : kind.Proper message)
    (hencode : kind.encode limits message = .ok bytes) :
    ((∀ rest, kind.get limits (bytes ++ rest) = some (message, rest)) ∧
        kind.decode limits bytes = .ok message) ↔
      kind.Within limits message ∧ kind.Indexed message := by
  obtain rfl := MessageKind.eq_put_of_encode hencode
  rw [← MessageKind.carried_eq_iff]
  constructor
  · rintro ⟨hread, hsame⟩
    have hwithin := MessageKind.yields kind _ _ _ (hread [])
    rw [MessageKind.decode_put hproper hwithin] at hsame
    exact ⟨hwithin, Except.ok.inj hsame⟩
  · rintro ⟨hwithin, hcarried⟩
    have hdecode := MessageKind.decode_put hproper hwithin
    have hread (rest : Bytes) :
        kind.get limits (kind.put message ++ rest) = some (kind.carried message, rest) :=
      (MessageKind.reads hproper).accepts hwithin rest
    rw [hcarried] at hdecode
    simp only [hcarried] at hread
    exact ⟨hread, hdecode⟩

/-- A plan with a cohort of two scopes and a stage with a requirement and a criterion, which
names its cohort by an index. -/
def planOfIndex (index : ℕ) : RolloutPlanRequest :=
  { candidate := ⟨7⟩
    cohorts := [{ name := text "first", scopes := [⟨1⟩, ⟨2⟩], trafficPercent := 50 }]
    stages := [{ name := text "stage", cohortIndices := [index], requiredEvidence := [{}]
                 acceptance := [{ threshold := ⟨9⟩ }], requireDrainAfterCommit := true }] }

theorem proper_planOfIndex (index : ℕ) : MessageKind.rolloutPlan.Proper (planOfIndex index) := by
  simp [MessageKind.Proper, planOfIndex, properStage, CriterionComparison.isNamed]

theorem within_planOfIndex (index : ℕ) :
    MessageKind.rolloutPlan.Within {} (planOfIndex index) := by
  simp [MessageKind.Within, planOfIndex, withinRolloutPlan, withinCohort, withinStage, Fits, text,
    maxStageChecks, sizeWord]

theorem messages_round_trip_witness :
    ∃ bytes, MessageKind.rolloutPlan.encode {} (planOfIndex 0) = .ok bytes ∧
      MessageKind.rolloutPlan.decode {} bytes = .ok (planOfIndex 0) := by
  have hencode : MessageKind.rolloutPlan.encode {} (planOfIndex 0) =
      .ok (MessageKind.rolloutPlan.put (planOfIndex 0)) := by decide +kernel
  have hindexed : MessageKind.rolloutPlan.Indexed (planOfIndex 0) := by
    simp [MessageKind.Indexed, planOfIndex]
  exact ⟨_, hencode, ((messages_round_trip_iff {} .rolloutPlan (planOfIndex 0) _
    (proper_planOfIndex 0) hencode).mpr ⟨within_planOfIndex 0, hindexed⟩).2⟩

/-- An index of `2 ^ 32` is within the bounds, and is read back as the index 0. -/
theorem wide_index_read_back :
    MessageKind.rolloutPlan.Proper (planOfIndex (2 ^ 32)) ∧
      MessageKind.rolloutPlan.Within {} (planOfIndex (2 ^ 32)) ∧
      planOfIndex 0 ≠ planOfIndex (2 ^ 32) ∧
      ∃ bytes, MessageKind.rolloutPlan.encode {} (planOfIndex (2 ^ 32)) = .ok bytes ∧
        MessageKind.rolloutPlan.decode {} bytes = .ok (planOfIndex 0) := by
  refine ⟨proper_planOfIndex _, within_planOfIndex _, by simp [planOfIndex],
    MessageKind.rolloutPlan.put (planOfIndex (2 ^ 32)), by decide +kernel, ?_⟩
  exact MessageKind.decode_put (proper_planOfIndex _) (within_planOfIndex _)

/-- An encoded message is accepted by its decoder exactly when it is within the bounds of its
reader. Only that it is then accepted is said of payloads that no count can measure. -/
theorem encoded_accepted_iff (limits : ProtocolLimits) (kind : MessageKind)
    (message : kind.Payload) (bytes : Bytes) (hproper : kind.Proper message)
    (hencode : kind.encode limits message = .ok bytes) :
    (kind.Within limits message → ∃ read, kind.decode limits bytes = .ok read) ∧
      (bytes.length < 2 ^ 32 →
        ((∃ read, kind.decode limits bytes = .ok read) ↔ kind.Within limits message)) := by
  obtain rfl := MessageKind.eq_put_of_encode hencode
  have haccepted (hwithin : kind.Within limits message) :
      ∃ read, kind.decode limits (kind.put message) = .ok read :=
    ⟨_, MessageKind.decode_put hproper hwithin⟩
  refine ⟨haccepted, fun hlength => ⟨?_, haccepted⟩⟩
  rintro ⟨read, hread⟩
  by_contra hwithin
  rw [MessageKind.decode_put_eq_error hproper hwithin hlength] at hread
  cases hread

/-- A message within the bounds, which its decoder accepts. -/
theorem encoded_accepted_witness :
    ∃ read, MessageKind.registerModel.decode {}
      (MessageKind.registerModel.put { name := text "llama" }) = .ok read := by
  have hproper : MessageKind.registerModel.Proper { name := text "llama" } := trivial
  have hencode : MessageKind.registerModel.encode {} { name := text "llama" } =
      .ok (MessageKind.registerModel.put { name := text "llama" }) := by decide +kernel
  have hwithin : MessageKind.registerModel.Within {} { name := text "llama" } := by
    simp [MessageKind.Within, withinRegisterModel, Fits, text]
  exact (encoded_accepted_iff {} _ _ _ hproper hencode).1 hwithin

theorem length_putRegisterModel (m : RegisterModelMessage) :
    (MessageKind.registerModel.put m).length = 9 + m.name.length + m.family.length := by
  simp [MessageKind.put, putRegisterModel, putEnum]
  omega

/-- A name of 257 bytes is encoded under the default limits and refused by the decoder. -/
theorem long_name_refused :
    ∃ bytes, MessageKind.registerModel.encode {} { name := List.replicate 257 97 } = .ok bytes ∧
      MessageKind.registerModel.decode {} bytes = .error .decodeFailure := by
  have hproper : MessageKind.registerModel.Proper { name := List.replicate 257 97 } := trivial
  have hwithin : ¬MessageKind.registerModel.Within {} { name := List.replicate 257 97 } := by
    intro hname
    have hlimit := hname.1.1
    rw [List.length_replicate] at hlimit
    exact absurd hlimit (by decide)
  have hlength : (MessageKind.registerModel.put { name := List.replicate 257 97 }).length =
      266 := by
    rw [length_putRegisterModel, List.length_replicate, List.length_nil]
  refine ⟨_, ?_, MessageKind.decode_put_eq_error hproper hwithin (by omega)⟩
  change encodePayload {} (MessageKind.registerModel.put _) = _
  rw [encodePayload, if_neg (by rw [hlength]; decide)]

end LifecycleFabric.Wire
