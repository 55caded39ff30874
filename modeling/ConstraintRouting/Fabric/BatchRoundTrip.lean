import ConstraintRouting.Fabric.BatchWire
import ConstraintRouting.Fabric.CandidateBytes
import ConstraintRouting.Fabric.Currentness
import ConstraintRouting.Fabric.OrderingSpec
import ConstraintRouting.Fabric.ReasonVectors

/-!
# Batches that survive the wire

A batch of candidates that arrived over the wire is read back as it was sent when the format
holds its generations and no constraint gives one reason twice.  A constraint that does, and
whose reasons are all reported, makes the batch unreadable.
-/

namespace ConstraintRouting.Fabric

open ByteReader
open Verified.Readers.Reader (bind_eq_some accept_eq_some pure_eq_some)
open Verified.SortedLists

/-- The batch is read back as it was sent. -/
def EvaluationBatch.Survives (batch : EvaluationBatch) (limits : Limits) : Prop :=
  decodeEvaluationBatch limits (encodeEvaluationBatch batch) = some (batch, [])

/-- The candidates that a batch evaluates: none of a rejected population. -/
def evaluatedCandidates (context : EvaluationContext) (candidates : List CandidatePath) :
    List CandidatePath :=
  if (batchRejection context.limits candidates).isSome then []
  else canonicalCandidates candidates

/-- The format holds the generations that a batch shows. -/
structure HeldByWire (context : EvaluationContext) (candidates : List CandidatePath) : Prop where
  setGeneration : context.set.generation.Storable
  generation : context.generation.Storable
  epoch : evaluatedCandidates context candidates ≠ [] → context.provenance.epoch.Storable

section Batches

variable {context : EvaluationContext} {candidates : List CandidatePath}
  {batch : EvaluationBatch}

theorem mem_of_mem_evaluatedCandidates {candidate : CandidatePath}
    (h : candidate ∈ evaluatedCandidates context candidates) : candidate ∈ candidates := by
  unfold evaluatedCandidates at h
  split at h
  · cases h
  · exact mem_of_mem_firstOfEach h

theorem evaluatedCandidates_of_accepted
    (haccepted : batchRejection context.limits candidates = none) :
    evaluatedCandidates context candidates = canonicalCandidates candidates := by
  unfold evaluatedCandidates
  rw [haccepted]
  rfl

theorem length_evaluatedCandidates_le :
    (evaluatedCandidates context candidates).length ≤
      context.limits.maxCandidatesPerEvaluation.toNat := by
  unfold evaluatedCandidates
  cases hrejection : batchRejection context.limits candidates with
  | some reason => exact Nat.zero_le _
  | none =>
      exact (length_canonicalCandidates_le candidates).trans (length_le_of_accepted hrejection)

/-- What a batch shows. -/
structure EvaluationBatch.Shows (batch : EvaluationBatch) (context : EvaluationContext)
    (candidates : List CandidatePath) : Prop where
  setGeneration : batch.setGeneration = context.set.generation
  generation : batch.generation = context.generation
  records : batch.records =
    (evaluatedCandidates context candidates).map (evaluationRecord context)
  order : ∀ entry ∈ batch.admissibleOrder, entry ∈ admissibleEntries batch.records
  orderCount : batch.admissibleOrder.length ≤ batch.records.length

theorem length_admissibleEntries_le (records : List EvaluationRecord) :
    (admissibleEntries records).length ≤ records.length := by
  unfold admissibleEntries
  have hfiltered := List.length_filterMap_le (fun entry : EvaluationRecord × Nat =>
    if entry.1.isAdmissible then some (⟨entry.1.path, UInt32.ofNat entry.2⟩ : RankedCandidate)
    else none) records.zipIdx
  rwa [List.length_zipIdx] at hfiltered

theorem acceptedBatch_shows (haccepted : batchRejection context.limits candidates = none) :
    (acceptedBatch context (canonicalCandidates candidates)).Shows context candidates := by
  have hevaluated := evaluatedCandidates_of_accepted haccepted
  have horder : (acceptedBatch context (canonicalCandidates candidates)).admissibleOrder =
      sortBy (RankedCandidate.cmp
          (acceptedBatch context (canonicalCandidates candidates)).records
          (canonicalCandidates candidates) context.set.ranking)
        (admissibleEntries (acceptedBatch context (canonicalCandidates candidates)).records) :=
    orderAdmissible_eq (List.length_map _)
  constructor
  · rfl
  · rfl
  · rw [hevaluated]
    rfl
  · intro entry hmem
    rw [horder] at hmem
    exact mem_sortBy.mp hmem
  · rw [horder, length_sortBy]
    exact length_admissibleEntries_le _

theorem shows_of_evaluateBatch (h : evaluateBatch context candidates = .ok batch) :
    batch.Shows context candidates := by
  cases hrejection : batchRejection context.limits candidates with
  | some reason =>
      unfold evaluateBatch at h
      simp only [hrejection] at h
      cases h
      have hnone : evaluatedCandidates context candidates = [] := by
        unfold evaluatedCandidates
        rw [hrejection]
        rfl
      constructor
      · rfl
      · rfl
      · rw [hnone]
        rfl
      · intro entry hmem
        cases hmem
      · exact Nat.le_refl _
  | none =>
      cases hlimits : validateLimits context.limits with
      | ok _ =>
          rw [evaluateBatch_of_accepted hlimits hrejection] at h
          cases h
          exact acceptedBatch_shows hrejection
      | error why =>
          rw [evaluateBatch_of_invalid hlimits hrejection] at h
          by_cases hempty : candidates = []
          · rw [if_pos hempty] at h
            cases h
            rw [hempty] at hrejection ⊢
            exact acceptedBatch_shows hrejection
          · rw [if_neg hempty] at h
            cases h

/-- The candidates came over the wire: each is valid, and the format holds it. -/
def Arrived (limits : Limits) (candidates : List CandidatePath) : Prop :=
  ∀ candidate ∈ candidates,
    candidate.Storable limits ∧ validateCandidate candidate limits = .ok ()

theorem arrived_of_decodeEvaluateRequest {limits : Limits} {bytes rest : List UInt8}
    {request : EvaluateCandidatesPayload}
    (h : decodeEvaluateRequest limits bytes = some (request, rest)) :
    Arrived limits request.candidates := by
  unfold decodeEvaluateRequest at h
  simp only [bind_eq_some, accept_eq_some, pure_eq_some,
    all_parses (decodeCandidate_parses limits) _ _ _ _] at h
  obtain ⟨_, _, _, _, _, _, _, _, _, found, _, ⟨_, _, hreadable⟩, hout⟩ := h
  cases hout
  exact hreadable

theorem length_preferences_le {candidate : CandidatePath}
    (hset : verifyCanonicalConstraintSet context.set context.limits = .ok ()) :
    (evaluationRecord context candidate).preferences.length ≤
      context.limits.maxConstraintsPerSet.toNat := by
  have hsize := listWithin_eq_true.mp (verifyCanonicalConstraintSet_eq_ok_iff.mp hset).1.size
  have hcollected : (collectPreferences context candidate).length ≤
      context.set.constraints.length := by
    unfold collectPreferences scopedConstraints
    rw [length_sortBy, List.length_map, List.length_map]
    exact (List.length_filter_le _ _).trans (List.length_zipIdx).le
  show (if (collectReasons context candidate).reasons.isEmpty then
    collectPreferences context candidate else []).length ≤ _
  split
  · omega
  · exact Nat.zero_le _

variable (hset : verifyCanonicalConstraintSet context.set context.limits = .ok ())
include hset

theorem EvaluationBatch.Shows.counted (hshows : batch.Shows context candidates) :
    batch.Counted := by
  have hrecords : batch.records.length ≤ context.limits.maxCandidatesPerEvaluation.toNat := by
    rw [hshows.records, List.length_map]
    exact length_evaluatedCandidates_le
  have hcandidates := context.limits.maxCandidatesPerEvaluation.toNat_lt
  have hexplanation := context.limits.maxExplanationReasons.toNat_lt
  have hconstraints := context.limits.maxConstraintsPerSet.toNat_lt
  have hordered := hshows.orderCount
  constructor
  · omega
  · omega
  · intro record hmem
    rw [hshows.records] at hmem
    obtain ⟨candidate, -, rfl⟩ := List.mem_map.mp hmem
    have hkept : (evaluationRecord context candidate).reasons.length ≤
        context.limits.maxExplanationReasons.toNat := length_keepReasons_le
    omega
  · intro record hmem
    rw [hshows.records] at hmem
    obtain ⟨candidate, -, rfl⟩ := List.mem_map.mp hmem
    have hkept := @length_preferences_le context candidate hset
    omega

/-- A batch is read back exactly when the format holds its generations and each record can be
read. -/
theorem EvaluationBatch.Shows.survives_iff (hshows : batch.Shows context candidates) :
    batch.Survives context.limits ↔
      context.set.generation.Storable ∧ context.generation.Storable ∧
        ∀ candidate ∈ evaluatedCandidates context candidates,
          (evaluationRecord context candidate).Storable context.limits ∧
            (evaluationRecord context candidate).Valid context.limits := by
  have hdecoded := @decodeEvaluationBatch_iff_of_counted context.limits batch
    (hshows.counted hset) [] (batch, [])
  rw [List.append_nil, Prod.mk.injEq, EvaluationBatch.received_eq_iff, hshows.setGeneration,
    hshows.generation] at hdecoded
  unfold EvaluationBatch.Survives
  rw [hdecoded]
  constructor
  · rintro ⟨hreadable, ⟨hsetGeneration, hgeneration⟩, -⟩
    refine ⟨hsetGeneration, hgeneration, ?_⟩
    intro candidate hmem
    apply hreadable.records
    rw [hshows.records]
    exact List.mem_map_of_mem hmem
  · rintro ⟨hsetGeneration, hgeneration, hrecords⟩
    refine ⟨?_, ⟨hsetGeneration, hgeneration⟩, rfl⟩
    have hcount : batch.records.length ≤ context.limits.maxCandidatesPerEvaluation.toNat := by
      rw [hshows.records, List.length_map]
      exact length_evaluatedCandidates_le
    have hpaths : ∀ record ∈ batch.records, record.path.isValid = true := by
      intro record hmem
      rw [hshows.records] at hmem
      obtain ⟨candidate, hcandidate, rfl⟩ := List.mem_map.mp hmem
      exact (hrecords candidate hcandidate).2.path
    constructor
    · exact hcount
    · intro record hmem
      rw [hshows.records] at hmem
      obtain ⟨candidate, hcandidate, rfl⟩ := List.mem_map.mp hmem
      exact hrecords candidate hcandidate
    · exact hshows.orderCount.trans hcount
    · intro entry hmem
      obtain ⟨index, hindex, -, rfl⟩ := mem_admissibleEntries.mp (hshows.order entry hmem)
      constructor
      · exact hpaths _ (List.getElem_mem hindex)
      · show (UInt32.ofNat index).toNat < batch.records.length
        rw [UInt32.toNat_ofNat']
        exact (Nat.mod_le _ _).trans_lt hindex

/-- A record of a valid candidate can be read back exactly when the format holds its epoch and
its reasons are canonical. -/
theorem evaluationRecord_readable_iff {candidate : CandidatePath}
    (hsetGeneration : context.set.generation.Storable)
    (hvalidGeneration : context.generation.isValid = true)
    (hgeneration : context.generation.Storable)
    (hcandidate : candidate.Storable context.limits ∧
      validateCandidate candidate context.limits = .ok ()) :
    (evaluationRecord context candidate).Storable context.limits ∧
        (evaluationRecord context candidate).Valid context.limits ↔
      context.provenance.epoch.Storable ∧
        (evaluationRecord context candidate).CanonicalReasons context.limits := by
  obtain ⟨hcontent, hvalidSet, -⟩ := verifyCanonicalConstraintSet_eq_ok_iff.mp hset
  obtain ⟨hstorable, hchecked⟩ := hcandidate
  have hvalid := validateCandidate_eq_ok_iff.mp hchecked
  constructor
  · intro h
    exact ⟨h.1.epoch, h.2.reasons⟩
  · rintro ⟨hepoch, hreasons⟩
    constructor
    · constructor
      · exact derivedEvaluationId_isValid _ _ _ _ _
      · exact hgeneration
      · exact representable_iff.mpr ⟨hvalidSet, hsetGeneration⟩
      · exact hstorable.authorityGeneration
      · exact hepoch
      · exact hstorable.evidence
      · exact length_preferences_le hset
    · exact ⟨hcontent.id, hvalid.path, hvalid.authority, hvalidGeneration, hreasons⟩

end Batches

/-- The batch of a request that was read from the wire survives the wire when the format holds
its generations and no constraint gives a candidate one reason twice.  A batch that survives
holds such generations, and no constraint gives one reason twice to a candidate whose reasons
are all reported. -/
theorem batch_survives_unless_reason_repeats {context : EvaluationContext}
    {bytes rest : List UInt8} {request : EvaluateCandidatesPayload} {batch : EvaluationBatch}
    (hset : verifyCanonicalConstraintSet context.set context.limits = .ok ())
    (hrequest : decodeEvaluateRequest context.limits bytes = some (request, rest))
    (hbatch : evaluateBatch context request.candidates = .ok batch)
    (hgeneration : batch.generation.isValid = true) :
    (HeldByWire context request.candidates →
      (∀ candidate ∈ evaluatedCandidates context request.candidates,
        ¬ RepeatsReason context candidate) → batch.Survives context.limits) ∧
    (batch.Survives context.limits → HeldByWire context request.candidates ∧
      ∀ candidate ∈ evaluatedCandidates context request.candidates,
        (evaluationRecord context candidate).reasonsTruncated = false →
          ¬ RepeatsReason context candidate) := by
  have hshows := shows_of_evaluateBatch hbatch
  have harrived := arrived_of_decodeEvaluateRequest hrequest
  have hcandidate : ∀ candidate ∈ evaluatedCandidates context request.candidates,
      candidate.Storable context.limits ∧
        validateCandidate candidate context.limits = .ok () :=
    fun candidate hmem => harrived candidate (mem_of_mem_evaluatedCandidates hmem)
  rw [hshows.generation] at hgeneration
  rw [hshows.survives_iff hset]
  constructor
  · intro hheld hapart
    refine ⟨hheld.setGeneration, hheld.generation, ?_⟩
    intro candidate hmem
    obtain ⟨hstorable, hchecked⟩ := hcandidate candidate hmem
    rw [evaluationRecord_readable_iff hset hheld.setGeneration hgeneration hheld.generation
      ⟨hstorable, hchecked⟩]
    constructor
    · exact hheld.epoch (List.ne_nil_of_mem hmem)
    · exact evaluationRecord_canonicalReasons hset hchecked
        (checksApart_of_not_repeatsReason hset hchecked hstorable (hapart candidate hmem))
  · rintro ⟨hsetGeneration, hstored, hrecords⟩
    constructor
    · constructor
      · exact hsetGeneration
      · exact hstored
      · intro hsome
        obtain ⟨candidate, hmem⟩ := List.exists_mem_of_ne_nil _ hsome
        exact (hrecords candidate hmem).1.epoch
    · intro candidate hmem hcomplete
      obtain ⟨hstorable, hchecked⟩ := hcandidate candidate hmem
      exact not_repeatsReason_of_canonical hset hchecked hstorable hcomplete
        (hrecords candidate hmem).2.reasons

/-- A set that forbids one link. -/
def sampleForbiddingSet : ConstraintSet :=
  { sampleSet 5 with
    constraints := [{ id := ⟨7⟩, generation := ⟨1⟩, kind := .forbiddenLink, links := [⟨50⟩] }] }

def sampleForbidding : EvaluationContext where
  set := { sampleForbiddingSet with
    state := .active, digest := constraintSetDigest sampleForbiddingSet }
  current := sampleEvidence
  generation := ⟨4⟩
  authorityVerified := true

/-- A path of three nodes whose links have one identity. -/
def sampleTwice (link : UInt64) : CandidatePath :=
  { samplePath 31 with
    hopCount := 2
    nodes := [{ node := ⟨1⟩ }, { node := ⟨2⟩ }, { node := ⟨3⟩ }]
    links := [{ link := ⟨link⟩, endpoints := (⟨1⟩, ⟨2⟩) },
      { link := ⟨link⟩, endpoints := (⟨2⟩, ⟨3⟩) }] }

/-- The request for one path. -/
def sampleRequest (candidate : CandidatePath) : EvaluateCandidatesPayload :=
  { setId := ⟨5⟩, candidates := [candidate] }

private theorem sampleRequest_read (link : UInt64) (h : link = 50 ∨ link = 60) :
    decodeEvaluateRequest {} (encodeEvaluateRequest (sampleRequest (sampleTwice link))) =
      some (sampleRequest (sampleTwice link), []) := by
  rcases h with rfl | rfl <;> decide +kernel

/-- A path that crosses a forbidden link twice makes a batch that is not read back. -/
theorem forbidden_link_twice_unreadable :
    ∃ batch, verifyCanonicalConstraintSet sampleForbidding.set {} = .ok () ∧
      decodeEvaluateRequest {} (encodeEvaluateRequest (sampleRequest (sampleTwice 50))) =
        some (sampleRequest (sampleTwice 50), []) ∧
      evaluateBatch sampleForbidding (sampleRequest (sampleTwice 50)).candidates = .ok batch ∧
      batch.generation.isValid = true ∧
      decodeEvaluationBatch {} (encodeEvaluationBatch batch) = none := by
  refine ⟨acceptedBatch sampleForbidding [sampleTwice 50], ?_, ?_, rfl, rfl, ?_⟩
  · decide +kernel
  · exact sampleRequest_read 50 (.inl rfl)
  · decide +kernel

/-- A path that crosses another link twice is read back, and no reason repeats. -/
theorem batch_survives_unless_reason_repeats_sample :
    (HeldByWire sampleForbidding [sampleTwice 60] →
      (∀ candidate ∈ evaluatedCandidates sampleForbidding [sampleTwice 60],
        ¬ RepeatsReason sampleForbidding candidate) →
        (acceptedBatch sampleForbidding [sampleTwice 60]).Survives {}) ∧
      (acceptedBatch sampleForbidding [sampleTwice 60]).Survives {} ∧
      ¬ RepeatsReason sampleForbidding (sampleTwice 60) := by
  have hboth := @batch_survives_unless_reason_repeats sampleForbidding _ _ _
    (acceptedBatch sampleForbidding [sampleTwice 60]) (by decide +kernel)
    (sampleRequest_read 60 (.inr rfl)) rfl rfl
  have hsurvives : (acceptedBatch sampleForbidding [sampleTwice 60]).Survives {} := by
    unfold EvaluationBatch.Survives
    decide +kernel
  have hcomplete : (evaluationRecord sampleForbidding (sampleTwice 60)).reasonsTruncated =
      false := by
    decide +kernel
  have hevaluated : sampleTwice 60 ∈
      evaluatedCandidates sampleForbidding [sampleTwice 60] := by
    decide +kernel
  exact ⟨hboth.1, hsurvives, (hboth.2 hsurvives).2 _ hevaluated hcomplete⟩

end ConstraintRouting.Fabric
