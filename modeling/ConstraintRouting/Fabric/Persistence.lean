import ConstraintRouting.Fabric.Authority
import ConstraintRouting.Fabric.Invalidation

/-!
# Versioned durable state

Everything the coordinator keeps durably, its semantic validation, its byte form
inside the envelope, and the store whose `save` replaces the file atomically.
-/

namespace ConstraintRouting.Fabric

open Verified.Readers.Reader (accept)

/-- The candidate population a constraint set was last evaluated against. -/
structure CandidatePopulation where
  setId : ConstraintSetId := {}
  candidates : List CandidatePath := []
deriving DecidableEq

/-- Everything the coordinator keeps durably. -/
structure PersistentState where
  epoch : CoordinatorEpoch := {}
  evidence : EvidenceRequirements := {}
  watermarks : Watermarks := {}
  sets : List ConstraintSet := []
  evaluations : List EvaluationRecord := []
  populations : List CandidatePopulation := []
  liveBoots : List WorkerBootId := []
  fencedBoots : List FencedBootRecord := []
  attempts : List MutationAttemptRecord := []
  lastEvaluationGeneration : EvaluationGeneration := {}
  initialized : Bool := false

/-! ## Semantic validation -/

/-- Distinct set identities, each set canonical; `seen` are the earlier ones. -/
def validateSets (limits : Limits) : List ConstraintSetId → List ConstraintSet → Status
  | _, [] => .ok ()
  | seen, set :: rest => do
      failIf (set.id ∈ seen) .duplicateIdentity "duplicate persisted constraint set identity"
      match verifyCanonicalConstraintSet set limits with
      | .ok () => pure ()
      | .error error =>
          failure error.code ("persisted constraint set is invalid: " ++ error.detail)
      validateSets limits (set.id :: seen) rest

def validatePopulationCandidate (limits : Limits) (candidate : CandidatePath) : Status :=
  match validateCandidate candidate limits with
  | .ok () => .ok ()
  | .error error => failure error.code ("persisted candidate is invalid: " ++ error.detail)

/-- At most one bounded population of valid candidates for each present set. -/
def validatePopulations (limits : Limits) (setIds : List ConstraintSetId) :
    List ConstraintSetId → List CandidatePopulation → Status
  | _, [] => .ok ()
  | seen, population :: rest => do
      failIf (population.setId ∉ setIds) .notFound
        "persisted candidate population binds a constraint set that is not present"
      failIf (population.setId ∈ seen) .duplicateIdentity
        "duplicate persisted candidate population"
      failIf (!listWithin population.candidates limits.maxCandidatesPerEvaluation)
        .resourceLimit "persisted candidate population exceeds the limit"
      population.candidates.forM (validatePopulationCandidate limits)
      validatePopulations limits setIds (population.setId :: seen) rest

/-- Reasons of the right class, strictly ascending. -/
def validateReasons : Option Reason → List Reason → Status
  | _, [] => .ok ()
  | previous, reason :: rest => do
      failIf (reasonClassOf reason.code != reason.reasonClass) .malformed
        "persisted reason class disagrees with its code"
      failIf (previous.any fun last => !reasonLess last reason) .malformed
        "persisted reason vector is not canonical"
      validateReasons (some reason) rest

/-- One record apart from its identity and its result key. -/
def validateRecordReasons (limits : Limits) (record : EvaluationRecord) : Status := do
  validateReasons none record.reasons
  match record.reasons with
  | [] =>
      failIf (record.primaryReason != .none) .malformed
        "persisted evaluation with no reasons declares a primary reason"
  | front :: _ =>
      failIf (record.primaryReason != front.code) .malformed
        "persisted primary reason is not the head of the reason vector"
  failIf (!listWithin record.reasons limits.maxExplanationReasons) .resourceLimit
    "persisted reason vector exceeds the limit"

/-- Set and path of a result. -/
def EvaluationRecord.resultKey (record : EvaluationRecord) : UInt64 × UInt64 :=
  (record.setId.value, record.path.value)

/-- Distinct identities, one current result for each set and path, reasons in
canonical form and every consulted family bound. -/
def validateEvaluations (limits : Limits) (setIds : List ConstraintSetId) :
    List ConstraintEvaluationId → List (UInt64 × UInt64) → List EvaluationRecord → Status
  | _, _, [] => .ok ()
  | ids, currentResults, record :: rest => do
      failIf (record.id ∈ ids) .duplicateIdentity "duplicate persisted evaluation identity"
      failIf (!record.setId.isValid || !record.path.isValid ||
          !record.authorityGeneration.isValid || !record.generation.isValid)
        .impossibleGeneration
        "persisted evaluation carries an impossible identity or generation"
      failIf (record.setId ∉ setIds) .notFound
        "persisted evaluation binds a constraint set that is not present"
      validateRecordReasons limits record
      failIf (record.state = .current && record.resultKey ∈ currentResults)
        .duplicateIdentity "two current results for the same constraint set and path"
      failIf (kFamilies.any fun family =>
          consults record.consulted family &&
            evidenceGenerationOf record.evidence family = 0) .malformed
        "persisted evaluation consults a family it did not bind"
      validateEvaluations limits setIds (record.id :: ids)
        (if record.state = .current then record.resultKey :: currentResults
          else currentResults) rest

/-- The highest generation of the records. -/
def highestGeneration (evaluations : List EvaluationRecord) : UInt64 :=
  evaluations.foldl (fun highest record => max highest record.generation.value) 0

/-- Valid and distinct identities; `key` selects the identity of an entry. -/
def validateIdentities {α : Type} {domain : IdentityDomain} (key : α → StrongId domain)
    (zero duplicate : String) : List (StrongId domain) → List α → Status
  | _, [] => .ok ()
  | seen, entry :: rest => do
      failIf (!(key entry).isValid) .invalidArgument zero
      failIf (key entry ∈ seen) .duplicateIdentity duplicate
      validateIdentities key zero duplicate (key entry :: seen) rest

/-- Full semantic validation of a state. -/
def validatePersistentState (state : PersistentState) (limits : Limits) : Status := do
  match validateLimits limits with
  | .ok () => pure ()
  | .error why => failure .invalidArgument why
  failIf (state.epoch.isValid && !Generation.isRepresentable state.epoch.value)
    .impossibleGeneration "persisted coordinator epoch is impossible"
  failIf (!listWithin state.sets limits.maxConstraintSets) .resourceLimit
    "persisted constraint set count exceeds the limit"
  failIf (!listWithin state.evaluations limits.maxEvaluationsRetained) .resourceLimit
    "persisted evaluation count exceeds the limit"
  failIf (!listWithin state.fencedBoots limits.maxFencedBoots) .resourceLimit
    "persisted fenced boot count exceeds the limit"
  failIf (!listWithin state.attempts limits.maxMutationAttempts) .resourceLimit
    "persisted mutation attempt count exceeds the limit"
  validateSets limits [] state.sets
  let setIds := state.sets.map (·.id)
  validatePopulations limits setIds [] state.populations
  validateEvaluations limits setIds [] [] state.evaluations
  failIf (!state.evaluations.isEmpty &&
      (!state.lastEvaluationGeneration.isValid ||
        state.lastEvaluationGeneration.value < highestGeneration state.evaluations))
    .impossibleGeneration "persisted evaluation generation counter is behind its records"
  failIf (!listWithin state.liveBoots limits.maxFencedBoots) .resourceLimit
    "persisted live boot count exceeds the limit"
  validateIdentities id "persisted live boot identity is zero"
    "duplicate persisted live boot" [] state.liveBoots
  validateIdentities (·.boot) "persisted fenced boot identity is zero"
    "duplicate persisted fenced boot" [] state.fencedBoots
  validateIdentities (·.attempt) "persisted mutation attempt identity is zero"
    "duplicate persisted mutation attempt" [] state.attempts

/-! ## Encoding -/

def writePopulation (population : CandidatePopulation) : List UInt8 :=
  ByteWriter.putId population.setId ++
  ByteWriter.putAll encodeCandidate population.candidates

def encodePersistentState (state : PersistentState) : List UInt8 :=
  ByteWriter.putGeneration state.epoch ++
  ByteWriter.putBool state.initialized ++
  ByteWriter.putU8 0 ++
  ByteWriter.putU16 0 ++
  ByteWriter.putU32 0 ++
  encodeEvidenceRequirements state.evidence ++
  ByteWriter.putGeneration state.lastEvaluationGeneration ++
  encodeWatermarks state.watermarks ++
  ByteWriter.putAll encodeConstraintSet state.sets ++
  ByteWriter.putAll encodeEvaluation state.evaluations ++
  ByteWriter.putAll writePopulation state.populations ++
  ByteWriter.putAll ByteWriter.putId state.liveBoots ++
  ByteWriter.putAll encodeFencedBoot state.fencedBoots ++
  ByteWriter.putAll encodeMutationAttempt state.attempts

/-- Magic prefix of every envelope. -/
def kStoreMagic : List UInt8 := "CRFSTORE".toUTF8.toList

def kPersistenceFormatVersion : UInt32 := 1

/-- Magic, format version, payload length, payload, CRC-32C and SHA-256. -/
def encodeEnvelope (payload : List UInt8) : List UInt8 :=
  kStoreMagic ++
  ByteWriter.putU32 kPersistenceFormatVersion ++
  ByteWriter.putU64 (UInt64.ofNat payload.length) ++
  ByteWriter.putRaw payload ++
  ByteWriter.putU32 (crc32c payload) ++
  ByteWriter.putRaw (Sha256.digest payload).bytes

/-! ## Decoding -/

def readPopulation (limits : Limits) : ByteReader.Reader CandidatePopulation := do
  let setId : ConstraintSetId ← ByteReader.id
  accept setId.isValid
  let candidates ← ByteReader.all limits.maxCandidatesPerEvaluation (decodeCandidate limits)
  return { setId, candidates }

def readLiveBoot : ByteReader.Reader WorkerBootId := do
  let boot : WorkerBootId ← ByteReader.id
  accept boot.isValid
  return boot

/-- The number of populations that a payload may hold, whatever the limits. -/
def kMaxPopulations : UInt32 := 64

def decodePersistentState (limits : Limits) : ByteReader.Reader PersistentState := do
  let epoch ← ByteReader.generationField
  let initialized ← ByteReader.boolean
  ByteReader.padding8
  ByteReader.padding16
  ByteReader.padding32
  let evidence ← decodeEvidenceRequirements
  let lastEvaluationGeneration ← ByteReader.generationField
  let watermarks ← decodeWatermarks limits
  let sets ← ByteReader.all limits.maxConstraintSets (decodeConstraintSet limits)
  let evaluations ← ByteReader.all limits.maxEvaluationsRetained (decodeEvaluation limits)
  let populations ← ByteReader.all kMaxPopulations (readPopulation limits)
  let liveBoots ← ByteReader.all limits.maxFencedBoots readLiveBoot
  let fencedBoots ← ByteReader.all limits.maxFencedBoots decodeFencedBoot
  let attempts ← ByteReader.all limits.maxMutationAttempts decodeMutationAttempt
  return { epoch, evidence, watermarks, sets, evaluations, populations, liveBoots,
           fencedBoots, attempts, lastEvaluationGeneration, initialized }

def kMagicSize : Nat := 8

def kHeaderSize : Nat := kMagicSize + 4 + 8

def kTrailerSize : Nat := 4 + 32

def kEnvelopeOverhead : Nat := kHeaderSize + kTrailerSize

/-- The format version and the payload length that a header declares. -/
def readEnvelopeHeader : ByteReader.Reader (UInt32 × UInt64) := do
  let version ← ByteReader.u32
  let payloadLength ← ByteReader.u64
  return (version, payloadLength)

/-- The payload of an intact envelope. -/
def decodeEnvelope (raw : List UInt8) (limits : Limits) : Result (List UInt8) := do
  failIf (raw.length < kEnvelopeOverhead) .truncated
    "durable envelope is shorter than its header"
  failIf (raw.take kMagicSize != kStoreMagic) .persistenceCorrupt
    "durable envelope magic does not match"
  match readEnvelopeHeader (raw.drop kMagicSize) with
  | none => failure .truncated "durable envelope header is truncated"
  | some ((version, payloadLength), _) => do
      failIf (version != kPersistenceFormatVersion) .unsupportedVersion
        "durable envelope version is not supported"
      failIf (limits.maxPersistenceRecordBytes.toUInt64 < payloadLength) .resourceLimit
        "durable envelope declares an absurd payload size"
      let expectedTotal := kEnvelopeOverhead + payloadLength.toNat
      failIf (raw.length != expectedTotal)
        (if raw.length < expectedTotal then .truncated else .trailingBytes)
        "durable envelope length does not match its declared payload"
      let body := (raw.drop kHeaderSize).take payloadLength.toNat
      let trailer := raw.drop (kHeaderSize + payloadLength.toNat)
      failIf ((ByteReader.u32 trailer).map (·.1) != some (crc32c body)) .integrityMismatch
        "durable envelope checksum does not match"
      failIf ((trailer.drop 4).take 32 != (Sha256.digest body).bytes) .integrityMismatch
        "durable envelope digest does not match"
      return body

/-! ## Store -/

/-- What the operating system answers to one atomic replacement of the file. -/
inductive WriteOutcome where
  | written | cannotCreate | cannotWrite | cannotFlush | cannotReplace
deriving DecidableEq

def WriteOutcome.status : WriteOutcome → Status
  | .written => .ok ()
  | .cannotCreate => failure .durableWriteFailed "cannot create the temporary store file"
  | .cannotWrite => failure .durableWriteFailed "cannot write the temporary store file"
  | .cannotFlush => failure .durableWriteFailed "cannot flush the temporary store file"
  | .cannotReplace =>
      failure .durableWriteFailed "cannot atomically replace the store file"

/-- The durable store: its counters and the bytes of its file, if there is one. -/
structure DurableStore where
  path : String
  limits : Limits
  file : Option (List UInt8) := none
  writes : UInt64 := 0
  failures : UInt64 := 0

namespace DurableStore

/-- Validates, encodes and atomically replaces the file.  A failure leaves the
file as it was. -/
def save (store : DurableStore) (state : PersistentState) (outcome : WriteOutcome) :
    DurableStore × Status :=
  match validatePersistentState state store.limits with
  | .error error => (store, .error error)
  | .ok () =>
      let payload := encodePersistentState state
      if !listWithin payload store.limits.maxPersistenceRecordBytes then
        ({ store with failures := store.failures + 1 },
          failure .resourceLimit "persistent state exceeds the record size limit")
      else
        match outcome.status with
        | .error error => ({ store with failures := store.failures + 1 }, .error error)
        | .ok () =>
            ({ store with file := some (encodeEnvelope payload), writes := store.writes + 1 },
              .ok ())

/-- Reads, decodes and validates the file. -/
def load (store : DurableStore) : Result PersistentState :=
  match store.file with
  | none => failure .notFound "durable store file does not exist"
  | some raw => do
      let payload ← decodeEnvelope raw store.limits
      match (decodePersistentState store.limits).toEnd payload with
      | none => failure .persistenceCorrupt "durable state payload is malformed"
      | some state =>
          match validatePersistentState state store.limits with
          | .ok () => return state
          | .error error => failure .persistenceCorrupt error.detail

end DurableStore

/-- A state that the store loaded: it has passed validation. -/
structure LoadedState (limits : Limits) where
  state : PersistentState
  valid : validatePersistentState state limits = .ok ()

/-- What opening the store and loading from it reported. -/
inductive StoreReport (limits : Limits) where
  /-- The store could not be opened. -/
  | refused (error : Error)
  /-- No store file exists. -/
  | absent
  /-- The file holds a valid state. -/
  | loaded (file : List UInt8) (state : LoadedState limits)
  /-- The file is there and could not be loaded. -/
  | unreadable (file : List UInt8) (error : Error)

theorem DurableStore.validate_of_load {store : DurableStore} {state : PersistentState}
    (h : store.load = .ok state) : validatePersistentState state store.limits = .ok () := by
  unfold load at h
  split at h
  · cases h
  · obtain ⟨payload, -, h⟩ := Verified.Checks.bind_eq_ok.mp h
    split at h
    · cases h
    · split at h
      · next hvalid =>
          cases h
          exact hvalid
      · cases h

/-- What opening a store reports of the file that is there. -/
def DurableStore.report (store : DurableStore) : StoreReport store.limits :=
  match store.file, h : store.load with
  | none, _ => .absent
  | some file, .ok state => .loaded file ⟨state, validate_of_load h⟩
  | some file, .error error =>
      .unreadable file
        ⟨error.code, "durable store exists but is not usable: " ++ error.detail⟩

end ConstraintRouting.Fabric
