import ConstraintRouting.Fabric.DecodeSpec
import ConstraintRouting.Fabric.DurableWrites
import ConstraintRouting.Verified.MonotoneTables

/-!
# A saved state is loaded again

The payload of a state and its envelope, read back.  Validation does not share every
bound of the decoder, so a state that is saved loads exactly when it is `Storable`.
-/

namespace ConstraintRouting.Fabric

open ByteWriter ByteReader
open Verified.Readers (Reads)
open Verified.Readers.Reader (bind_eq bind_iff pure_eq_some accept_bind toEnd_eq_some)
open Verified.Checks (seq_eq_ok bind_eq_ok)
open Verified.SortedLists
open Verified.MonotoneTables

/-! ## Watermarks -/

theorem Watermarks.advanceKey_eq (watermarks : Watermarks) (key : InvalidationKey)
    (watermark : UInt64) : watermarks.advanceKey key watermark =
      (raise watermarks.keys key watermark).map fun keys => { watermarks with keys } := by
  unfold Watermarks.advanceKey raise
  split <;> rfl

theorem Watermarks.advanceFamily_eq (watermarks : Watermarks) (family : EvidenceFamily)
    (generation : UInt64) : watermarks.advanceFamily family generation =
      (raise watermarks.families family generation).map fun families =>
        { watermarks with families } := by
  unfold Watermarks.advanceFamily raise
  split <;> rfl

theorem restoreKeys_eq (watermarks : Watermarks) (entries : List (InvalidationKey × UInt64)) :
    restoreKeys watermarks entries =
      { watermarks with keys := raiseAll watermarks.keys entries } := by
  induction entries generalizing watermarks with
  | nil => rfl
  | cons entry rest ih =>
      have hfirst : (watermarks.advanceKey entry.1 entry.2).getD watermarks =
          { watermarks with
            keys := (raise watermarks.keys entry.1 entry.2).getD watermarks.keys } := by
        rw [Watermarks.advanceKey_eq]
        cases raise watermarks.keys entry.1 entry.2 <;> rfl
      show restoreKeys ((watermarks.advanceKey entry.1 entry.2).getD watermarks) rest = _
      rw [ih, hfirst]
      rfl

theorem restoreFamilies_eq (watermarks : Watermarks) (entries : List (EvidenceFamily × UInt64)) :
    restoreFamilies watermarks entries =
      { watermarks with families := raiseAll watermarks.families entries } := by
  induction entries generalizing watermarks with
  | nil => rfl
  | cons entry rest ih =>
      have hfirst : (watermarks.advanceFamily entry.1 entry.2).getD watermarks =
          { watermarks with
            families := (raise watermarks.families entry.1 entry.2).getD
              watermarks.families } := by
        rw [Watermarks.advanceFamily_eq]
        cases raise watermarks.families entry.1 entry.2 <;> rfl
      show restoreFamilies ((watermarks.advanceFamily entry.1 entry.2).getD watermarks) rest = _
      rw [ih, hfirst]
      rfl

/-- The watermarks as their encoding keeps them: the seven families, unset ones at
zero. -/
def Watermarks.stored (watermarks : Watermarks) : Watermarks :=
  { keys := watermarks.keys
    families := raiseAll ∅ (kFamilies.map fun family => (family, watermarks.family family)) }

theorem Watermarks.stored_family (watermarks : Watermarks) {family : EvidenceFamily}
    (h : family ∈ kFamilies) : watermarks.stored.family family = watermarks.family family := by
  have hdistinct : (kFamilies.map fun family =>
      (family, watermarks.family family)).Pairwise fun a b => a.1 ≠ b.1 := by
    rw [List.pairwise_map]
    show kFamilies.Pairwise fun a b => a ≠ b
    decide
  have hset := (@getElem?_raiseAll _ _ EvidenceFamily.cmp _ _ _ ∅ _ _ hdistinct (by simp)).1
    (family, watermarks.family family) (List.mem_map_of_mem h)
  show (raiseAll ∅ _).getD family 0 = _
  rw [Std.ExtTreeMap.getD_eq_getD_getElem?, hset]
  rfl

/-- The code of one key watermark. -/
def encodeKeyWatermark (entry : InvalidationKey × UInt64) : List UInt8 :=
  putU8 entry.1.kind.code ++ putU8 0 ++ putU16 0 ++ putU32 0 ++ putU64 entry.1.value ++
    putU64 entry.2

/-- The code of one family watermark. -/
def encodeFamilyWatermark (entry : EvidenceFamily × UInt64) : List UInt8 :=
  putU8 entry.1.code ++ putU8 0 ++ putU16 0 ++ putU32 0 ++ putU64 entry.2

theorem readKeyWatermark_reads :
    Reads (2 ^ 32) readKeyWatermark encodeKeyWatermark fun _ => True := by
  intro entry rest out _
  simp only [readKeyWatermark, encodeKeyWatermark, List.append_assoc,
    InvalidationKeyKind.read_bind, padding8_bind, padding16_bind, padding32_bind, u64_bind,
    pure_eq_some, true_and]

theorem readFamilyWatermark_reads :
    Reads (2 ^ 32) readFamilyWatermark encodeFamilyWatermark fun entry =>
      entry.1 ≠ .none := by
  intro entry rest out _
  simp only [readFamilyWatermark, encodeFamilyWatermark, List.append_assoc,
    EvidenceFamily.read_bind, padding8_bind, padding16_bind, padding32_bind, u64_bind,
    accept_bind, pure_eq_some, bne_iff_ne]

/-- The family watermarks as entries. -/
def Watermarks.familyEntries (watermarks : Watermarks) : List (EvidenceFamily × UInt64) :=
  kFamilies.map fun family => (family, watermarks.family family)

theorem encodeWatermarks_eq (watermarks : Watermarks) :
    encodeWatermarks watermarks = putAll encodeKeyWatermark watermarks.keys.toList ++
      putAll encodeFamilyWatermark watermarks.familyEntries := by
  simp only [encodeWatermarks, putAll, putCount, Watermarks.familyEntries, List.flatMap_map,
    List.length_map]
  rfl

/-- The watermarks are read back when their keys are no more than a list may hold. -/
theorem decodeWatermarks_eq_some (limits : Limits) {watermarks : Watermarks}
    {rest : List UInt8} {out : Watermarks × List UInt8}
    (hsize : (encodeWatermarks watermarks).length < 2 ^ 32) :
    decodeWatermarks limits (encodeWatermarks watermarks ++ rest) = some out ↔
      watermarks.keys.size ≤ limits.maxDecodedCount.toNat ∧
        (watermarks.stored, rest) = out := by
  rw [encodeWatermarks_eq] at hsize ⊢
  rw [List.length_append] at hsize
  have hkeys := @all_bind _ Watermarks _ _ _ readKeyWatermark_reads
    (fun _ => List.cons_ne_nil _ _) limits.maxDecodedCount watermarks.keys.toList
  have hfamilies := @all_bind _ Watermarks _ _ _ readFamilyWatermark_reads
    (fun _ => List.cons_ne_nil _ _) 16 watermarks.familyEntries
  have hascending : strictlyAscending InvalidationKey.cmp
      (watermarks.keys.toList.map (·.1)) = true := by
    rw [Std.ExtTreeMap.map_fst_toList_eq_keys]
    exact decide_eq_true watermarks.keys.ordered_keys.isChain
  have hnamed : ∀ entry ∈ watermarks.familyEntries, entry.1 ≠ .none := by
    simp [Watermarks.familyEntries, kFamilies]
  have hseven : watermarks.familyEntries.length = 7 := by
    rw [Watermarks.familyEntries, List.length_map]
    rfl
  have hsixteen : (7 : Nat) ≤ (16 : UInt32).toNat := by decide
  have hrestored : restoreFamilies (restoreKeys {} watermarks.keys.toList)
      watermarks.familyEntries = watermarks.stored := by
    rw [restoreKeys_eq, restoreFamilies_eq, raiseAll_toList]
    rfl
  unfold decodeWatermarks
  simp (disch := omega) only [List.append_assoc, hkeys, hfamilies, accept_bind, pure_eq_some,
    hascending, hseven, hrestored, hsixteen, Std.ExtTreeMap.length_toList, decide_true,
    true_and, implies_true, and_true]
  exact ⟨fun h => ⟨h.1, h.2.2⟩, fun h => ⟨h.1, hnamed, h.2⟩⟩

/-! ## States -/

theorem readLiveBoot_reads :
    Reads (2 ^ 32) readLiveBoot putId fun boot => boot.isValid = true := by
  intro boot rest out _
  simp only [readLiveBoot, id_bind, accept_bind, pure_eq_some]

theorem decodeFencedBoot_reads :
    Reads (2 ^ 32) decodeFencedBoot encodeFencedBoot fun record =>
      record.fencedAt.Storable ∧ record.boot.isValid = true := by
  intro record rest out _
  simp only [decodeFencedBoot, encodeFencedBoot, Generation.Storable, List.append_assoc,
    id_bind, generationField_bind, u64_bind, accept_bind, pure_eq_some, and_assoc]

theorem decodeMutationAttempt_reads :
    Reads (2 ^ 32) decodeMutationAttempt encodeMutationAttempt fun record =>
      record.attempt.isValid = true := by
  intro record rest out _
  simp only [decodeMutationAttempt, encodeMutationAttempt, List.append_assoc, id_bind,
    digest_bind, u64_bind, accept_bind, pure_eq_some]

theorem readPopulation_reads (limits : Limits) :
    Reads (2 ^ 32) (readPopulation limits) writePopulation fun population =>
      population.setId.isValid = true ∧
      population.candidates.length ≤ limits.maxCandidatesPerEvaluation.toNat ∧
      ∀ candidate ∈ population.candidates,
        candidate.Storable limits ∧ validateCandidate candidate limits = .ok () := by
  intro population rest out hsize
  unfold writePopulation at hsize ⊢
  rw [List.length_append] at hsize
  have hcandidates := @all_bind _ CandidatePopulation _ _ _ (decodeCandidate_reads limits)
    encodeCandidate_ne_nil limits.maxCandidatesPerEvaluation population.candidates
  unfold readPopulation
  simp (disch := omega) only [List.append_assoc, id_bind, accept_bind, pure_eq_some,
    hcandidates, and_assoc]

/-- What the format asks of a validated state. -/
structure PersistentState.Storable (limits : Limits) (state : PersistentState) : Prop where
  evidence : state.evidence.Storable
  lastEvaluationGeneration : state.lastEvaluationGeneration.Storable
  watermarks : state.watermarks.keys.size ≤ limits.maxDecodedCount.toNat
  sets : ∀ set ∈ state.sets, set.Storable limits
  evaluations : ∀ record ∈ state.evaluations, record.Storable limits
  populations : state.populations.length ≤ kMaxPopulations.toNat
  candidates : ∀ population ∈ state.populations, ∀ candidate ∈ population.candidates,
    candidate.Storable limits
  fencedBoots : ∀ record ∈ state.fencedBoots, record.fencedAt.Storable

/-- What the decoder asks of a state. -/
structure PersistentState.Readable (limits : Limits) (state : PersistentState) : Prop
    extends state.Storable limits where
  epoch : state.epoch.Storable
  setCount : state.sets.length ≤ limits.maxConstraintSets.toNat
  canonical : ∀ set ∈ state.sets, verifyCanonicalConstraintSet set limits = .ok ()
  evaluationCount : state.evaluations.length ≤ limits.maxEvaluationsRetained.toNat
  records : ∀ record ∈ state.evaluations, record.Valid limits
  populationIds : ∀ population ∈ state.populations, population.setId.isValid = true
  populationSizes : ∀ population ∈ state.populations,
    population.candidates.length ≤ limits.maxCandidatesPerEvaluation.toNat
  populationCandidates : ∀ population ∈ state.populations,
    ∀ candidate ∈ population.candidates, validateCandidate candidate limits = .ok ()
  liveCount : state.liveBoots.length ≤ limits.maxFencedBoots.toNat
  live : ∀ boot ∈ state.liveBoots, boot.isValid = true
  fencedCount : state.fencedBoots.length ≤ limits.maxFencedBoots.toNat
  fenced : ∀ record ∈ state.fencedBoots, record.boot.isValid = true
  attemptCount : state.attempts.length ≤ limits.maxMutationAttempts.toNat
  attempt : ∀ record ∈ state.attempts, record.attempt.isValid = true

/-- Validation shares with the decoder all but the format's own bounds. -/
theorem Validated.readable_iff {state : PersistentState} {limits : Limits}
    (h : Validated state limits) : state.Readable limits ↔ state.Storable limits := by
  have hsetId : ∀ id ∈ state.sets.map (·.id), id.isValid = true := by
    intro id hmem
    obtain ⟨set, hset, rfl⟩ := List.mem_map.mp hmem
    exact (verifyCanonicalConstraintSet_eq_ok_iff.mp (h.canonical set hset)).1.id
  have hepoch : state.epoch.Storable := by
    by_cases hset : state.epoch.isValid = true
    · exact (representable_iff.mp (h.epoch hset)).2
    · simp only [Generation.isValid, bne_iff_ne, ne_eq, not_not] at hset
      rw [Generation.Storable, hset]
      exact UInt64.zero_le
  exact ⟨fun hreadable => hreadable.toStorable, fun hstorable =>
    { hstorable with
      epoch := hepoch
      setCount := h.setCount
      canonical := h.canonical
      evaluationCount := h.evaluationCount
      records := fun record hmem => (h.record record hmem).toValid
      populationIds := fun population hmem => hsetId _ (h.population population hmem).set
      populationSizes := fun population hmem => (h.population population hmem).size
      populationCandidates := fun population hmem => (h.population population hmem).candidates
      liveCount := h.liveCount
      live := h.live
      fencedCount := h.fencedCount
      fenced := h.fenced
      attemptCount := h.attemptCount
      attempt := h.attempt }⟩

/-- The state as its encoding keeps it. -/
def PersistentState.stored (state : PersistentState) : PersistentState :=
  { state with watermarks := state.watermarks.stored }

/-- The payload of a state is read back exactly when the decoder accepts the state. -/
theorem decodePersistentState_eq_some {state : PersistentState} {limits : Limits}
    (hsize : (encodePersistentState state).length < 2 ^ 32)
    (out : PersistentState × List UInt8) :
    decodePersistentState limits (encodePersistentState state) = some out ↔
      state.Readable limits ∧ (state.stored, []) = out := by
  unfold encodePersistentState at hsize ⊢
  simp only [List.length_append, length_putU8, length_putU16, length_putU32,
    length_putBool, length_putGeneration] at hsize
  have hsets := @all_bind _ PersistentState _ _ _ (decodeConstraintSet_reads limits)
    encodeConstraintSet_ne_nil limits.maxConstraintSets state.sets
  have hrecords := @all_bind _ PersistentState _ _ _ (decodeEvaluation_reads limits)
    encodeEvaluation_ne_nil limits.maxEvaluationsRetained state.evaluations
  have hpopulations := @all_bind _ PersistentState _ _ _ (readPopulation_reads limits)
    (fun _ => List.cons_ne_nil _ _) kMaxPopulations state.populations
  have hlive := @all_bind _ PersistentState _ _ _ readLiveBoot_reads
    (fun _ => List.cons_ne_nil _ _) limits.maxFencedBoots state.liveBoots
  have hfenced := @all_bind _ PersistentState _ _ _ decodeFencedBoot_reads
    (fun _ => List.cons_ne_nil _ _) limits.maxFencedBoots state.fencedBoots
  have hattempts := fun (next : List MutationAttemptRecord → ByteReader.Reader PersistentState)
      (out : PersistentState × List UInt8) =>
    @all_bind _ PersistentState _ _ _ decodeMutationAttempt_reads
      (fun _ => List.cons_ne_nil _ _) limits.maxMutationAttempts state.attempts [] next out
  simp only [List.append_nil] at hattempts
  have hevidence := fun rest => @bind_iff _ _ PersistentState _ _ _ _ _
    (fun out => decodeEvidenceRequirements_reads state.evidence rest out (by omega))
  have hwatermarks := fun rest => @bind_iff _ _ PersistentState _ _ _ _ _
    (fun out => @decodeWatermarks_eq_some limits state.watermarks rest out (by omega))
  unfold decodePersistentState
  simp (disch := omega) only [List.append_assoc, boolean_bind, generationField_bind, padding8_bind, padding16_bind, padding32_bind, pure_eq_some,
    and_assoc, hevidence, hwatermarks, hsets, hrecords, hpopulations, hlive, hfenced,
    hattempts]
  constructor
  · intro h
    obtain ⟨hepoch, hevidence, hgeneration, hkeys, hsetCount, hsets, hrecordCount, hrecords,
      hpopulationCount, hpopulations, hliveCount, hlive, hfencedCount, hfenced, hattemptCount,
      hattempts, hout⟩ := h
    exact ⟨
      { evidence := hevidence
        lastEvaluationGeneration := hgeneration
        watermarks := hkeys
        sets := fun set hmem => (hsets set hmem).1
        evaluations := fun record hmem => (hrecords record hmem).1
        populations := hpopulationCount
        candidates := fun population hmem candidate hcandidate =>
          ((hpopulations population hmem).2.2 candidate hcandidate).1
        fencedBoots := fun record hmem => (hfenced record hmem).1
        epoch := hepoch
        setCount := hsetCount
        canonical := fun set hmem => (hsets set hmem).2
        evaluationCount := hrecordCount
        records := fun record hmem => (hrecords record hmem).2
        populationIds := fun population hmem => (hpopulations population hmem).1
        populationSizes := fun population hmem => (hpopulations population hmem).2.1
        populationCandidates := fun population hmem candidate hcandidate =>
          ((hpopulations population hmem).2.2 candidate hcandidate).2
        liveCount := hliveCount
        live := hlive
        fencedCount := hfencedCount
        fenced := fun record hmem => (hfenced record hmem).2
        attemptCount := hattemptCount
        attempt := hattempts }, hout⟩
  · intro h
    obtain ⟨hreadable, hout⟩ := h
    have hcandidates : ∀ population ∈ state.populations, population.setId.isValid = true ∧
        population.candidates.length ≤ limits.maxCandidatesPerEvaluation.toNat ∧
        ∀ candidate ∈ population.candidates,
          candidate.Storable limits ∧ validateCandidate candidate limits = .ok () :=
      fun population hmem => ⟨hreadable.populationIds population hmem,
        hreadable.populationSizes population hmem, fun candidate hcandidate =>
          ⟨hreadable.candidates population hmem candidate hcandidate,
           hreadable.populationCandidates population hmem candidate hcandidate⟩⟩
    exact ⟨hreadable.epoch, hreadable.evidence, hreadable.lastEvaluationGeneration,
      hreadable.watermarks, hreadable.setCount,
      fun set hmem => ⟨hreadable.sets set hmem, hreadable.canonical set hmem⟩,
      hreadable.evaluationCount,
      fun record hmem => ⟨hreadable.evaluations record hmem, hreadable.records record hmem⟩,
      hreadable.populations, hcandidates, hreadable.liveCount, hreadable.live,
      hreadable.fencedCount,
      fun record hmem => ⟨hreadable.fencedBoots record hmem, hreadable.fenced record hmem⟩,
      hreadable.attemptCount, hreadable.attempt, hout⟩

/-! ## The envelope -/

theorem length_kStoreMagic : kStoreMagic.length = kMagicSize := by decide +kernel

/-- An envelope is its header, the payload and its trailer. -/
theorem encodeEnvelope_eq (payload : List UInt8) :
    encodeEnvelope payload =
      (kStoreMagic ++ (putU32 kPersistenceFormatVersion ++
        putU64 (UInt64.ofNat payload.length))) ++
      (payload ++ (putU32 (crc32c payload) ++ (Sha256.digest payload).bytes)) := by
  simp only [encodeEnvelope, putRaw, List.append_assoc]

/-- An envelope gives its payload back when the payload is within the limit. -/
theorem decodeEnvelope_eq_ok {payload decoded : List UInt8} {limits : Limits}
    (hsize : payload.length < 2 ^ 32) :
    decodeEnvelope (encodeEnvelope payload) limits = .ok decoded ↔
      payload.length ≤ limits.maxPersistenceRecordBytes.toNat ∧ payload = decoded := by
  have hlength : (UInt64.ofNat payload.length).toNat = payload.length := by
    rw [UInt64.toNat_ofNat', Nat.mod_eq_of_lt (by omega)]
  rw [encodeEnvelope_eq]
  generalize hheader : kStoreMagic ++ (putU32 kPersistenceFormatVersion ++
    putU64 (UInt64.ofNat payload.length)) = header
  generalize htrailer : putU32 (crc32c payload) ++ (Sha256.digest payload).bytes = trailer
  have hheaderSize : header.length = kHeaderSize := by
    rw [← hheader]
    simp only [List.length_append, length_kStoreMagic, length_putU32, length_putU64]
    rfl
  have htrailerSize : trailer.length = kTrailerSize := by
    rw [← htrailer]
    simp only [List.length_append, length_putU32, (Sha256.digest payload).size]
    rfl
  have htotal : (header ++ (payload ++ trailer)).length = kEnvelopeOverhead + payload.length := by
    simp only [List.length_append, hheaderSize, htrailerSize, kEnvelopeOverhead]
    omega
  have hmagic : (header ++ (payload ++ trailer)).take kMagicSize = kStoreMagic := by
    rw [← hheader, List.append_assoc]
    exact List.take_left' length_kStoreMagic
  have hfields : readEnvelopeHeader ((header ++ (payload ++ trailer)).drop kMagicSize) =
      some ((kPersistenceFormatVersion, UInt64.ofNat payload.length), payload ++ trailer) := by
    rw [← hheader, List.append_assoc, List.drop_left' length_kStoreMagic, List.append_assoc,
      readEnvelopeHeader, bind_eq (u32_putU32 _ _), bind_eq (u64_putU64 _ _)]
    rfl
  have hbody : ((header ++ (payload ++ trailer)).drop kHeaderSize).take payload.length =
      payload := by
    rw [List.drop_left' hheaderSize, List.take_left' rfl]
  have hrest : (header ++ (payload ++ trailer)).drop (kHeaderSize + payload.length) =
      trailer := by
    rw [← List.drop_drop, List.drop_left' hheaderSize, List.drop_left' rfl]
  have hcrc : (ByteReader.u32 trailer).map (·.1) = some (crc32c payload) := by
    rw [← htrailer, u32_putU32]
    rfl
  have hdigest : (trailer.drop 4).take 32 = (Sha256.digest payload).bytes := by
    rw [← htrailer, List.drop_left' (length_putU32 _),
      List.take_of_length_le (Sha256.digest payload).size.le]
  have hrecord : ¬ limits.maxPersistenceRecordBytes.toUInt64 < UInt64.ofNat payload.length ↔
      payload.length ≤ limits.maxPersistenceRecordBytes.toNat := by
    rw [UInt64.lt_iff_toNat_lt, UInt32.toNat_toUInt64, hlength, Nat.not_lt]
  have henvelope : ¬ kEnvelopeOverhead + payload.length < kEnvelopeOverhead := by omega
  unfold decodeEnvelope
  simp only [hfields, hlength, htotal, hmagic, hbody, hrest, hcrc, hdigest, seq_eq_ok,
    failIf_eq_ok, decide_eq_false_iff_not, bne_self_eq_false, hrecord, henvelope,
    not_false_eq_true, true_and]
  exact and_congr_right' ⟨fun h => Except.ok.inj h, fun h => congrArg Except.ok h⟩

/-! ## The store -/

/-- Two states hold the same: every field agrees, and the watermarks agree on each key
and on each family that carries a generation. -/
structure PersistentState.Same (state loaded : PersistentState) : Prop where
  fields : { loaded with watermarks := state.watermarks } = state
  keys : loaded.watermarks.keys = state.watermarks.keys
  families : ∀ family ∈ kFamilies,
    loaded.watermarks.family family = state.watermarks.family family

theorem PersistentState.same_stored (state : PersistentState) : state.Same state.stored where
  fields := by
    unfold stored
    dsimp only
  keys := by
    unfold stored Watermarks.stored
    dsimp only
  families := by
    intro family hmem
    exact state.watermarks.stored_family hmem

theorem Validated.stored {state : PersistentState} {limits : Limits}
    (h : Validated state limits) : Validated state.stored limits := by
  rw [← validatePersistentState_eq_ok] at h ⊢
  exact h

namespace DurableStore

variable {store after : DurableStore} {state : PersistentState} {outcome : WriteOutcome}

/-- A save that is accepted leaves the envelope of a validated state within the
limit. -/
theorem save_eq_ok (h : store.save state outcome = (after, .ok ())) :
    Validated state store.limits ∧
      (encodePersistentState state).length ≤ store.limits.maxPersistenceRecordBytes.toNat ∧
      after.limits = store.limits ∧
      after.file = some (encodeEnvelope (encodePersistentState state)) := by
  unfold save at h
  cases hvalid : validatePersistentState state store.limits with
  | error error => simp [hvalid] at h
  | ok _ =>
      simp only [hvalid] at h
      split at h
      · simp [failure] at h
      · next hsize =>
          cases houtcome : outcome.status with
          | error error => simp [houtcome] at h
          | ok _ =>
              simp only [houtcome, Prod.mk.injEq, and_true] at h
              subst h
              simp only [Bool.not_eq_true, Bool.not_eq_false', listWithin_eq_true] at hsize
              exact ⟨validatePersistentState_eq_ok.mp hvalid, hsize, rfl, rfl⟩

/-- A save that is refused leaves the file as it was. -/
theorem file_of_save_error {error : Error} (h : (store.save state outcome).2 = .error error) :
    (store.save state outcome).1.file = store.file := by
  unfold save at h ⊢
  split
  · rfl
  · dsimp only
    split
    · rfl
    · next hvalid hsize =>
        cases houtcome : outcome.status with
        | error error => rfl
        | ok _ => simp [hvalid, hsize, houtcome] at h

/-- Whatever loads from the envelope of a state is the state as it was encoded. -/
theorem stored_of_load {loaded : PersistentState}
    (hfile : store.file = some (encodeEnvelope (encodePersistentState state)))
    (hsize : (encodePersistentState state).length < 2 ^ 32) (h : store.load = .ok loaded) :
    loaded = state.stored := by
  unfold load at h
  simp only [hfile] at h
  obtain ⟨payload, hpayload, h⟩ := bind_eq_ok.mp h
  obtain ⟨-, rfl⟩ := (decodeEnvelope_eq_ok hsize).mp hpayload
  split at h
  · cases h
  · next decoded hdecoded =>
      obtain ⟨-, rfl⟩ := (toEnd_eq_some (decodePersistentState_eq_some hsize)).mp hdecoded
      split at h
      · cases h
        rfl
      · cases h

/-- What a store loads from the envelope of a validated state within the limit: the state
as it was encoded when the format holds it, and nothing otherwise. -/
theorem load_of_file (hfile : store.file = some (encodeEnvelope (encodePersistentState state)))
    (hvalid : Validated state store.limits)
    (hsize : (encodePersistentState state).length ≤
      store.limits.maxPersistenceRecordBytes.toNat) :
    store.load = .ok state.stored ∧ state.Storable store.limits ∨
      store.load = failure .persistenceCorrupt "durable state payload is malformed" ∧
        ¬ state.Storable store.limits := by
  have hbound : (encodePersistentState state).length < 2 ^ 32 :=
    Nat.lt_of_le_of_lt hsize store.limits.maxPersistenceRecordBytes.toNat_lt
  have hread := fun loaded => @toEnd_eq_some _ _ _ _ _ loaded _
    (@decodePersistentState_eq_some _ store.limits hbound)
  have haccepted : validatePersistentState state.stored store.limits = .ok () :=
    validatePersistentState_eq_ok.mpr hvalid.stored
  unfold load
  simp only [hfile, (decodeEnvelope_eq_ok hbound).mpr ⟨hsize, rfl⟩, bind, Except.bind]
  by_cases hstorable : state.Storable store.limits
  · left
    rw [(hread state.stored).mpr ⟨hvalid.readable_iff.mpr hstorable, rfl⟩]
    simp only [haccepted]
    exact ⟨rfl, hstorable⟩
  · right
    have hnone : (decodePersistentState store.limits).toEnd (encodePersistentState state) =
        none := by
      rw [Option.eq_none_iff_forall_ne_some]
      intro loaded hloaded
      exact hstorable ((hread loaded).mp hloaded).1.toStorable
    rw [hnone]
    exact ⟨rfl, hstorable⟩

/-- What a store loads after an accepted save. -/
theorem load_of_save (h : store.save state outcome = (after, .ok ())) :
    after.load = .ok state.stored ∧ state.Storable store.limits ∨
      after.load = failure .persistenceCorrupt "durable state payload is malformed" ∧
        ¬ state.Storable store.limits := by
  obtain ⟨hvalid, hsize, hlimits, hfile⟩ := save_eq_ok h
  rw [← hlimits] at hvalid hsize ⊢
  exact load_of_file hfile hvalid hsize

/-- After an accepted save the store loads the same state again exactly when the state is
storable: its generations are at most the ceiling, its evidence names identities at
generations, and its lists are within the bounds of the decoder. -/
theorem load_after_save_iff (h : store.save state outcome = (after, .ok ())) :
    (∃ loaded, after.load = .ok loaded ∧ state.Same loaded) ↔ state.Storable store.limits := by
  rcases load_of_save h with ⟨hload, hstorable⟩ | ⟨hload, hunstorable⟩
  · exact ⟨fun _ => hstorable, fun _ => ⟨state.stored, hload, state.same_stored⟩⟩
  · constructor
    · intro hloads
      obtain ⟨loaded, hloaded, -⟩ := hloads
      rw [hload] at hloaded
      cases hloaded
    · exact fun hstorable => absurd hstorable hunstorable

/-- A save is a pair of the store it leaves and its status. -/
theorem save_eq_of_status {status : Status} (h : (store.save state outcome).2 = status) :
    store.save state outcome = ((store.save state outcome).1, status) :=
  h ▸ rfl

end DurableStore

/-! ## An evidence generation above the ceiling -/

/-- A store of an opened coordinator, before its first write. -/
def sampleStore : DurableStore := { path := "fabric.store", limits := {} }

/-- What a coordinator that was just opened saves. -/
def sampleState : PersistentState :=
  { epoch := ⟨1⟩, evidence := sampleEvidence, initialized := true }

private theorem sampleStore_saves : (sampleStore.save sampleState .written).2 = .ok () := by
  decide +kernel

theorem load_after_save_iff_sample :
    ∃ after, sampleStore.save sampleState .written = (after, .ok ()) ∧
      ((∃ loaded, after.load = .ok loaded ∧ sampleState.Same loaded) ↔
        sampleState.Storable sampleStore.limits) := by
  have hsaved := DurableStore.save_eq_of_status sampleStore_saves
  exact ⟨_, hsaved, DurableStore.load_after_save_iff hsaved⟩

/-- Requirements that name a topology generation above the ceiling. -/
def sampleUnrepresentable : EvidenceRequirements :=
  { sampleEvidence with topology := ⟨Generation.kMaxGeneration + 1⟩ }

/-- Requires them under the second attempt. -/
def sampleUnloadable : List Input :=
  [sampleRegister,
   sampleInput (.operate (.setEvidenceRequirements (sampleContext 10) sampleUnrepresentable))]

/-- The last event stages a state with such a generation, and the save accepts it. -/
private def savesUnloadable (events : List Event) : Bool :=
  events.getLast?.any fun event =>
    match event.input.action with
    | .operate operation =>
        match operation.stage event.pre.impl event.input.call with
        | .write staged next _ _ =>
            event.output = .operated (.ok .done) &&
              staged.store.any fun store =>
                decide ((store.save next event.input.call.write).2 = .ok () ∧
                  Generation.kMaxGeneration < next.evidence.topology.value)
        | .reply _ _ => false
    | _ => false

private theorem sampleUnloadable_saves :
    ((sampleDurableRun sampleUnloadable).any fun run => savesUnloadable run.1) = true := by
  decide +kernel

/-- A coordinator acknowledges a state that its store then refuses as corrupt. -/
theorem accepted_save_is_corrupt :
    ∃ events last, sampleDurableRun sampleUnloadable = some (events, last) ∧
      Execution events last ∧
      ∃ event ∈ events, event.output = .operated (.ok .done) ∧
        ∃ operation staged state applies value store after,
          event.input.action = .operate operation ∧
          operation.stage event.pre.impl event.input.call =
            .write staged state applies value ∧
          staged.store = some store ∧
          store.save state event.input.call.write = (after, .ok ()) ∧
          after.load = failure .persistenceCorrupt "durable state payload is malformed" ∧
          ¬ ∃ loaded, after.load = .ok loaded ∧ state.Same loaded := by
  obtain ⟨events, last, hrun, hexecution, hcheck⟩ := Execution.of_check _ sampleUnloadable_saves
  refine ⟨events, last, hrun, hexecution, ?_⟩
  obtain ⟨event, hlast, hevent⟩ := (Option.any_eq_true _ _).mp hcheck
  obtain ⟨before, rfl⟩ := List.getLast?_eq_some_iff.mp hlast
  cases haction : event.input.action with
  | operate operation =>
      cases hstage : operation.stage event.pre.impl event.input.call with
      | write staged state applies value =>
          simp only [haction, hstage, Bool.and_eq_true, decide_eq_true_eq] at hevent
          obtain ⟨houtput, hsave⟩ := hevent
          obtain ⟨store, hstore, haccepted⟩ := (Option.any_eq_true _ _).mp hsave
          obtain ⟨hstatus, hceiling⟩ := of_decide_eq_true haccepted
          have hsaved := DurableStore.save_eq_of_status hstatus
          have hunstorable : ¬ state.Storable store.limits := fun h =>
            absurd h.evidence.topology (UInt64.not_le.mpr hceiling)
          rcases DurableStore.load_of_save hsaved with ⟨-, hstorable⟩ | ⟨hload, -⟩
          · exact absurd hstorable hunstorable
          · refine ⟨event, by simp, houtput, operation, staged, state, applies, value, store, _,
              haction, hstage, hstore, hsaved, hload, ?_⟩
            intro hloads
            obtain ⟨loaded, hloaded, -⟩ := hloads
            rw [hload] at hloaded
            cases hloaded
      | reply _ _ => simp [haction, hstage] at hevent
  | _ => simp [haction] at hevent

end ConstraintRouting.Fabric
