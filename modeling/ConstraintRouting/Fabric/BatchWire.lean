import ConstraintRouting.Fabric.DecodeSpec
import ConstraintRouting.Fabric.Protocol

/-!
# Evaluation batches on the wire

The decoder of a batch gives back the batch that was encoded, save that it leaves a
generation unset that is above the ceiling, exactly when each record can be read back and
the counts are within the bounds.
-/

namespace ConstraintRouting.Fabric

open ByteWriter ByteReader
open Verified.Readers (Reads)
open Verified.Readers.Reader (accept_bind pure_eq_some)

/-- The generation as the batch decoder gives it back. -/
def Generation.received {domain : GenerationDomain} (generation : Generation domain) :
    Generation domain :=
  if isRepresentable generation.value then generation else {}

/-- Only a generation above the ceiling is not given back. -/
theorem Generation.received_eq_iff {domain : GenerationDomain}
    {generation : Generation domain} :
    generation.received = generation ↔ generation.Storable := by
  unfold received isRepresentable Storable
  by_cases hzero : generation.value = 0
  · have hunset : generation = {} := by
      cases generation
      exact congrArg _ hzero
    simp [hunset]
  · by_cases hwithin : generation.value ≤ kMaxGeneration
    · simp [hzero, hwithin]
    · have hset : ({} : Generation domain) ≠ generation := by
        intro hsame
        exact hzero (congrArg Generation.value hsame).symm
      simp [hwithin, hset]

/-- The batch as its decoder gives it back. -/
def EvaluationBatch.received (batch : EvaluationBatch) : EvaluationBatch :=
  { batch with
    setGeneration := batch.setGeneration.received
    generation := batch.generation.received }

theorem EvaluationBatch.received_eq_iff {batch : EvaluationBatch} :
    batch.received = batch ↔ batch.setGeneration.Storable ∧ batch.generation.Storable := by
  rw [← Generation.received_eq_iff, ← Generation.received_eq_iff]
  constructor
  · intro h
    exact ⟨congrArg EvaluationBatch.setGeneration h, congrArg EvaluationBatch.generation h⟩
  · intro h
    unfold received
    rw [h.1, h.2]

/-- What the decoder of a batch accepts. -/
structure EvaluationBatch.Readable (batch : EvaluationBatch) (limits : Limits) : Prop where
  recordCount : batch.records.length ≤ limits.maxCandidatesPerEvaluation.toNat
  records : ∀ record ∈ batch.records, record.Storable limits ∧ record.Valid limits
  orderCount : batch.admissibleOrder.length ≤ limits.maxCandidatesPerEvaluation.toNat
  order : ∀ entry ∈ batch.admissibleOrder, entry.path.isValid = true ∧
    entry.recordIndex.toNat < batch.records.length

section Readers

variable {γ : Type} {rest : List UInt8}

theorem readBatchGeneration_bind {domain : GenerationDomain} (value : Generation domain)
    (next : Generation domain → Reader γ) :
    (readBatchGeneration >>= next) (putGeneration value ++ rest) = next value.received rest := by
  unfold readBatchGeneration
  simp only [bind_assoc, pure_bind, generation_bind]
  rfl

theorem BatchOutcome.read_bind (outcome : BatchOutcome) (next : BatchOutcome → Reader γ) :
    (BatchOutcome.read >>= next) (putU16 outcome.code ++ rest) = next outcome rest :=
  enum16_bind (by cases outcome <;> rfl) rest next

theorem readRanked_reads {bound : Nat} (records : Nat) :
    Reads bound (readRanked records) writeRanked fun entry =>
      entry.path.isValid = true ∧ entry.recordIndex.toNat < records := by
  intro entry rest out _
  unfold readRanked writeRanked
  simp only [List.append_assoc, id_bind, u32_bind, accept_bind, pure_eq_some,
    Bool.and_eq_true, decide_eq_true_eq]

end Readers

/-- The collections of a batch and of its records fit their counts. -/
structure EvaluationBatch.Counted (batch : EvaluationBatch) : Prop where
  records : batch.records.length < 2 ^ 32
  order : batch.admissibleOrder.length < 2 ^ 32
  reasons : ∀ record ∈ batch.records, record.reasons.length < 2 ^ 32
  preferences : ∀ record ∈ batch.records, record.preferences.length < 2 ^ 32

/-- A batch whose collections fit their counts is read back exactly when it is readable. -/
theorem decodeEvaluationBatch_iff_of_counted {limits : Limits} {batch : EvaluationBatch}
    (hcounted : batch.Counted) (rest : List UInt8) (out : EvaluationBatch × List UInt8) :
    decodeEvaluationBatch limits (encodeEvaluationBatch batch ++ rest) = some out ↔
      batch.Readable limits ∧ (batch.received, rest) = out := by
  have hrecord : ∀ record ∈ batch.records, ∀ rest out,
      decodeEvaluation limits (encodeEvaluation record ++ rest) = some out ↔
        (record.Storable limits ∧ record.Valid limits) ∧ (record, rest) = out :=
    fun record hmem => decodeEvaluation_iff (hcounted.reasons record hmem)
      (hcounted.preferences record hmem)
  have hentry : ∀ entry ∈ batch.admissibleOrder, ∀ rest out,
      readRanked batch.records.length (writeRanked entry ++ rest) = some out ↔
        (entry.path.isValid = true ∧ entry.recordIndex.toNat < batch.records.length) ∧
          (entry, rest) = out :=
    fun entry _ rest out => readRanked_reads _ entry rest out (Nat.lt_succ_self _)
  have hrecords := fun rest next out => @all_bind_of_length _ EvaluationBatch _ _ _
    limits.maxCandidatesPerEvaluation batch.records rest next out hrecord hcounted.records
  have horder := fun rest next out => @all_bind_of_length _ EvaluationBatch _ _ _
    limits.maxCandidatesPerEvaluation batch.admissibleOrder rest next out hentry hcounted.order
  unfold decodeEvaluationBatch encodeEvaluationBatch
  simp only [List.append_assoc, id_bind, readBatchGeneration_bind, BatchOutcome.read_bind,
    ReasonCode.read_bind, boolean_bind, padding8_bind, hrecords, horder, pure_eq_some, and_assoc]
  constructor
  · intro h
    obtain ⟨hrecordCount, hrecords, horderCount, horder, hout⟩ := h
    exact ⟨⟨hrecordCount, hrecords, horderCount, horder⟩, hout⟩
  · intro h
    obtain ⟨hreadable, hout⟩ := h
    exact ⟨hreadable.recordCount, hreadable.records, hreadable.orderCount, hreadable.order,
      hout⟩

/-- The collections of a batch that fits the wire fit their counts. -/
theorem EvaluationBatch.counted_of_size {batch : EvaluationBatch}
    (hsize : (encodeEvaluationBatch batch).length < 2 ^ 32) : batch.Counted := by
  unfold encodeEvaluationBatch at hsize
  simp only [List.length_append, putAll] at hsize
  have hrecords := Reads.length_le_flatMap encodeEvaluation_ne_nil batch.records
  have horder := @Reads.length_le_flatMap _ _ writeRanked (fun _ => List.cons_ne_nil _ _)
    batch.admissibleOrder
  have hlists : ∀ record ∈ batch.records,
      record.reasons.length < 2 ^ 32 ∧ record.preferences.length < 2 ^ 32 := by
    intro record hmem
    have hrecord := @Reads.length_le_length_flatMap _ _ encodeEvaluation batch.records record hmem
    have hparts : (record.reasons.flatMap writeReason).length +
        (record.preferences.flatMap writePreference).length ≤ (encodeEvaluation record).length := by
      unfold encodeEvaluation
      simp only [List.length_append, putAll]
      omega
    have hreasons := @Reads.length_le_flatMap _ _ writeReason (fun _ => List.cons_ne_nil _ _)
      record.reasons
    have hpreferences := @Reads.length_le_flatMap _ _ writePreference
      (fun _ => List.cons_ne_nil _ _) record.preferences
    constructor <;> omega
  exact ⟨by omega, by omega, fun record hmem => (hlists record hmem).1,
    fun record hmem => (hlists record hmem).2⟩

/-- A batch that fits the wire is read back exactly when it is readable. -/
theorem decodeEvaluationBatch_iff {limits : Limits} {batch : EvaluationBatch}
    (hsize : (encodeEvaluationBatch batch).length < 2 ^ 32) (rest : List UInt8)
    (out : EvaluationBatch × List UInt8) :
    decodeEvaluationBatch limits (encodeEvaluationBatch batch ++ rest) = some out ↔
      batch.Readable limits ∧ (batch.received, rest) = out :=
  decodeEvaluationBatch_iff_of_counted (EvaluationBatch.counted_of_size hsize) rest out

end ConstraintRouting.Fabric
