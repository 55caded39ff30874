import ConstraintRouting.Fabric.Authority
import ConstraintRouting.Fabric.Evaluation

/-!
# Versioned wire protocol

Frames with a fixed semantic header, and the codecs of the payloads that they carry.  The
integrity trailer covers the header and the payload.
-/

namespace ConstraintRouting.Fabric

open Verified.Readers.Reader (accept known)

/-- Stable numeric message identifiers. -/
inductive MessageId where
  | invalid | hello | helloAck | registerPublisher | registerPublisherAck
  | publishConstraintSet | publishConstraintSetAck | applyLifecycle | applyLifecycleAck
  | evaluateCandidates | evaluateCandidatesAck | queryDefinitions | definitionsReport
  | queryResults | resultsReport | queryCurrentness | currentnessReport | heartbeat
  | sessionFenced | errorReport | shutdown
deriving DecidableEq

def MessageId.code : MessageId → UInt16
  | .invalid => 0
  | .hello => 1
  | .helloAck => 2
  | .registerPublisher => 3
  | .registerPublisherAck => 4
  | .publishConstraintSet => 5
  | .publishConstraintSetAck => 6
  | .applyLifecycle => 7
  | .applyLifecycleAck => 8
  | .evaluateCandidates => 9
  | .evaluateCandidatesAck => 10
  | .queryDefinitions => 11
  | .definitionsReport => 12
  | .queryResults => 13
  | .resultsReport => 14
  | .queryCurrentness => 15
  | .currentnessReport => 16
  | .heartbeat => 17
  | .sessionFenced => 18
  | .errorReport => 19
  | .shutdown => 20

/-- A known message: from Hello to Shutdown. -/
def MessageId.read : ByteReader.Reader MessageId :=
  ByteReader.enum16
    [.hello, .helloAck, .registerPublisher, .registerPublisherAck, .publishConstraintSet,
     .publishConstraintSetAck, .applyLifecycle, .applyLifecycleAck, .evaluateCandidates,
     .evaluateCandidatesAck, .queryDefinitions, .definitionsReport, .queryResults,
     .resultsReport, .queryCurrentness, .currentnessReport, .heartbeat, .sessionFenced,
     .errorReport, .shutdown] MessageId.code

def kWireMagic : UInt32 := 0x46465243

def kProtocolVersionValue : UInt16 := 1

/-- Fixed semantic header. -/
structure FrameHeader where
  protocolVersion : UInt16 := kProtocolVersionValue
  message : MessageId := .invalid
  flags : UInt16 := 0
  payloadLength : UInt32 := 0
  epoch : CoordinatorEpoch := {}
  publisher : PublisherId := {}
  workerBoot : WorkerBootId := {}
  attempt : MutationAttemptId := {}
  request : RequestId := {}
  scopes : AuthorityScopeMask := 0
deriving DecidableEq

structure Frame where
  header : FrameHeader := {}
  payload : List UInt8 := []
deriving DecidableEq

/-! ## Frames -/

def encodeFrameHeader (header : FrameHeader) : List UInt8 :=
  ByteWriter.putU32 kWireMagic ++
  ByteWriter.putU16 header.protocolVersion ++
  ByteWriter.putU16 header.message.code ++
  ByteWriter.putU16 header.flags ++
  ByteWriter.putU16 0 ++
  ByteWriter.putU32 header.payloadLength ++
  ByteWriter.putGeneration header.epoch ++
  ByteWriter.putId header.publisher ++
  ByteWriter.putId header.workerBoot ++
  ByteWriter.putId header.attempt ++
  ByteWriter.putId header.request ++
  ByteWriter.putU32 header.scopes

/-- The bytes of a frame; its version and length are set here. -/
def encodeFrame (frame : Frame) (limits : Limits) : Result (List UInt8) := do
  failIf (!listWithin frame.payload limits.maxFrameBytes) .resourceLimit
    "frame payload exceeds the configured limit"
  failIf (frame.header.message = .invalid) .invalidArgument
    "frame message identifier is not set"
  let header := encodeFrameHeader { frame.header with
    protocolVersion := kProtocolVersionValue
    payloadLength := UInt32.ofNat frame.payload.length }
  return header ++
    ByteWriter.putRaw frame.payload ++
    ByteWriter.putU32 (crc32c (header ++ frame.payload)) ++
    ByteWriter.putRaw (Sha256.digest (header ++ frame.payload)).bytes

/-- Bytes before the payload: magic through scopes. -/
def kSemanticHeaderBytes : Nat := 60

def kTrailerBytes : Nat := 4 + 32

/-- Bytes of a frame without payload. -/
def kHeaderBytes : Nat := kSemanticHeaderBytes + kTrailerBytes

/-- Total encoded size of a frame with the given payload length. -/
def frameSize (payloadLength : UInt32) : Nat := kHeaderBytes + payloadLength.toNat

def decodeFrameHeader : ByteReader.Reader FrameHeader := do
  let magic ← ByteReader.u32
  let protocolVersion ← ByteReader.u16
  let message ← MessageId.read
  let flags ← ByteReader.u16
  let reserved ← ByteReader.u16
  let payloadLength ← ByteReader.u32
  let epoch ← ByteReader.generationField
  let publisher ← ByteReader.id
  let workerBoot ← ByteReader.id
  let attempt ← ByteReader.id
  let request ← ByteReader.id
  let scopes ← ByteReader.u32
  accept (magic = kWireMagic && reserved = 0)
  return { protocolVersion, message, flags, payloadLength, epoch, publisher, workerBoot,
           attempt, request, scopes }

/-- The frame that a byte string is, if it is one from its first to its last byte. -/
def decodeFrame (raw : List UInt8) (limits : Limits) : Result Frame := do
  failIf (raw.length < kHeaderBytes) .truncated "frame is shorter than its header"
  match decodeFrameHeader raw with
  | none => failure .malformed "frame header is malformed"
  | some (header, _) => do
      failIf (header.protocolVersion != kProtocolVersionValue) .unsupportedVersion
        "frame protocol version is not supported"
      failIf (limits.maxFrameBytes < header.payloadLength) .resourceLimit
        "frame declares an oversized payload"
      failIf (raw.length != frameSize header.payloadLength)
        (if raw.length < frameSize header.payloadLength then .truncated else .trailingBytes)
        "frame length does not match its declared payload length"
      let semantic := raw.take kSemanticHeaderBytes
      let payload := (raw.drop kSemanticHeaderBytes).take header.payloadLength.toNat
      let trailer := raw.drop (kSemanticHeaderBytes + header.payloadLength.toNat)
      failIf ((ByteReader.u32 trailer).map (·.1) != some (crc32c (semantic ++ payload)))
        .integrityMismatch "frame checksum does not match"
      failIf ((trailer.drop 4).take 32 != (Sha256.digest (semantic ++ payload)).bytes)
        .integrityMismatch "frame digest does not match"
      return { header, payload }

/-- Reassembles fragmented reads into whole frames, with a bound on what it buffers. -/
structure FrameAssembler where
  limits : Limits
  buffer : List UInt8 := []
  failed : Bool := false

namespace FrameAssembler

def fail {α : Type} (assembler : FrameAssembler) (code : ErrorCode) (detail : String) :
    FrameAssembler × Result α :=
  ({ assembler with buffer := [], failed := true }, failure code detail)

def push (assembler : FrameAssembler) (chunk : List UInt8) : FrameAssembler × Status :=
  if assembler.failed then
    (assembler, failure .protocolViolation "frame assembler is in a failed state")
  else if assembler.limits.maxFrameAssemblyBytes.toNat <
      assembler.buffer.length + chunk.length then
    assembler.fail .resourceLimit "frame assembly buffer exceeds the configured limit"
  else ({ assembler with buffer := assembler.buffer ++ chunk }, .ok ())

/-- Pops one complete frame, or nothing when more bytes are needed. -/
def pop (assembler : FrameAssembler) : FrameAssembler × Result (Option Frame) :=
  if assembler.failed then
    (assembler, failure .protocolViolation "frame assembler is in a failed state")
  else if assembler.buffer.length < kHeaderBytes then (assembler, .ok none)
  else
    match decodeFrameHeader ((assembler.buffer.take kHeaderBytes).take kSemanticHeaderBytes) with
    | none => assembler.fail .malformed "started frame header is malformed"
    | some (header, _) =>
        if header.protocolVersion != kProtocolVersionValue then
          assembler.fail .unsupportedVersion
            "started frame declares an unsupported protocol version"
        else if assembler.limits.maxFrameBytes < header.payloadLength then
          assembler.fail .resourceLimit "started frame declares an oversized payload"
        else
          let total := frameSize header.payloadLength
          if assembler.buffer.length < total then (assembler, .ok none)
          else
            match decodeFrame (assembler.buffer.take total) assembler.limits with
            | .error error => assembler.fail error.code error.detail
            | .ok frame =>
                ({ assembler with buffer := assembler.buffer.drop total }, .ok (some frame))

def reset (assembler : FrameAssembler) : FrameAssembler :=
  { assembler with buffer := [], failed := false }

end FrameAssembler

/-! ## Sessions -/

structure HelloPayload where
  publisher : PublisherId := {}
  workerBoot : WorkerBootId := {}
  requestedScopes : AuthorityScopeMask := 0
  clientName : List UInt8 := []
deriving DecidableEq

def encodeHello (payload : HelloPayload) : List UInt8 :=
  ByteWriter.putId payload.publisher ++
  ByteWriter.putId payload.workerBoot ++
  ByteWriter.putU32 payload.requestedScopes ++
  ByteWriter.putString payload.clientName

def decodeHello (limits : Limits) : ByteReader.Reader HelloPayload := do
  let publisher : PublisherId ← ByteReader.id
  let workerBoot : WorkerBootId ← ByteReader.id
  let requestedScopes ← ByteReader.u32
  accept (publisher.isValid && workerBoot.isValid)
  let clientName ← ByteReader.string
  accept (listWithin clientName limits.maxNameBytes)
  return { publisher, workerBoot, requestedScopes, clientName }

structure HelloAckPayload where
  epoch : CoordinatorEpoch := {}
  session : SessionId := {}
  grantedScopes : AuthorityScopeMask := 0
  protocolVersion : UInt16 := kProtocolVersionValue
  accepted : Bool := false
deriving DecidableEq

def encodeHelloAck (payload : HelloAckPayload) : List UInt8 :=
  ByteWriter.putGeneration payload.epoch ++
  ByteWriter.putId payload.session ++
  ByteWriter.putU32 payload.grantedScopes ++
  ByteWriter.putU16 payload.protocolVersion ++
  ByteWriter.putBool payload.accepted ++
  ByteWriter.putU8 0

def decodeHelloAck : ByteReader.Reader HelloAckPayload := do
  let epoch ← ByteReader.generationField
  let session ← ByteReader.id
  let grantedScopes ← ByteReader.u32
  let protocolVersion ← ByteReader.u16
  let accepted ← ByteReader.boolean
  ByteReader.padding8
  return { epoch, session, grantedScopes, protocolVersion, accepted }

structure ErrorReportPayload where
  code : ErrorCode
  reason : ReasonCode := .none
  detail : List UInt8 := []
deriving DecidableEq

def ErrorCode.code : ErrorCode → UInt32
  | .invalidArgument => 1
  | .malformed => 2
  | .resourceLimit => 3
  | .contradictoryConstraintSet => 4
  | .duplicateIdentity => 5
  | .unknownConstraintKind => 6
  | .invalidNumericBound => 7
  | .impossibleGeneration => 8
  | .notFound => 9
  | .unauthorized => 10
  | .fenced => 11
  | .epochMismatch => 12
  | .staleGeneration => 13
  | .idempotentReplay => 14
  | .mutationAttemptConflict => 15
  | .persistenceUnavailable => 16
  | .persistenceCorrupt => 17
  | .durableWriteFailed => 18
  | .integrityMismatch => 19
  | .unsupportedVersion => 20
  | .truncated => 21
  | .trailingBytes => 22
  | .transportFailure => 23
  | .protocolViolation => 24
  | .notSupported => 25
  | .internal => 26

def encodeErrorReport (payload : ErrorReportPayload) : List UInt8 :=
  ByteWriter.putU32 payload.code.code ++
  ByteWriter.putU16 payload.reason.code ++
  ByteWriter.putU16 0 ++
  ByteWriter.putString payload.detail

/-- An error code.  The source takes the code of success for one too, which its writer
never produces. -/
def ErrorCode.read : ByteReader.Reader ErrorCode := do
  let raw ← ByteReader.u32
  known
    [.invalidArgument, .malformed, .resourceLimit, .contradictoryConstraintSet,
     .duplicateIdentity, .unknownConstraintKind, .invalidNumericBound, .impossibleGeneration,
     .notFound, .unauthorized, .fenced, .epochMismatch, .staleGeneration, .idempotentReplay,
     .mutationAttemptConflict, .persistenceUnavailable, .persistenceCorrupt,
     .durableWriteFailed, .integrityMismatch, .unsupportedVersion, .truncated,
     .trailingBytes, .transportFailure, .protocolViolation, .notSupported, .internal]
    ErrorCode.code raw

def decodeErrorReport (limits : Limits) : ByteReader.Reader ErrorReportPayload := do
  let code ← ErrorCode.read
  let reason ← ReasonCode.read
  ByteReader.padding16
  let detail ← ByteReader.string
  accept (listWithin detail limits.maxDetailBytes)
  return { code, reason, detail }

/-! ## Mutations -/

structure PublishConstraintSetAckPayload where
  setId : ConstraintSetId := {}
  generation : ConstraintSetGeneration := {}
  digest : Digest256 := {}
deriving DecidableEq

def encodePublishAck (payload : PublishConstraintSetAckPayload) : List UInt8 :=
  ByteWriter.putId payload.setId ++
  ByteWriter.putGeneration payload.generation ++
  ByteWriter.putRaw payload.digest.bytes

def decodePublishAck : ByteReader.Reader PublishConstraintSetAckPayload := do
  let setId : ConstraintSetId ← ByteReader.id
  let generation : ConstraintSetGeneration ← ByteReader.generation
  let digest ← Digest256.read
  accept (setId.isValid && Generation.isRepresentable generation.value)
  return { setId, generation, digest }

structure EvaluateCandidatesPayload where
  setId : ConstraintSetId := {}
  expectedGeneration : ConstraintSetGeneration := {}
  candidates : List CandidatePath := []
deriving DecidableEq

def encodeEvaluateRequest (payload : EvaluateCandidatesPayload) : List UInt8 :=
  ByteWriter.putId payload.setId ++
  ByteWriter.putGeneration payload.expectedGeneration ++
  ByteWriter.putAll encodeCandidate payload.candidates

/-- Decodes an evaluation request; an expected generation of zero is no expectation. -/
def decodeEvaluateRequest (limits : Limits) : ByteReader.Reader EvaluateCandidatesPayload := do
  let setId : ConstraintSetId ← ByteReader.id
  let expectedGeneration ← ByteReader.generationField
  accept setId.isValid
  let candidates ← ByteReader.all limits.maxCandidatesPerEvaluation (decodeCandidate limits)
  return { setId, expectedGeneration, candidates }

/-! ## Evaluation batches -/

def BatchOutcome.code : BatchOutcome → UInt16
  | .admissibleCandidatesAvailable => 0
  | .noAdmissibleCandidate => 1
  | .batchRejected => 2

def BatchOutcome.read : ByteReader.Reader BatchOutcome :=
  ByteReader.enum16
    [.admissibleCandidatesAvailable, .noAdmissibleCandidate, .batchRejected]
    BatchOutcome.code

def writeRanked (entry : RankedCandidate) : List UInt8 :=
  ByteWriter.putId entry.path ++ ByteWriter.putU32 entry.recordIndex

def encodeEvaluationBatch (batch : EvaluationBatch) : List UInt8 :=
  ByteWriter.putId batch.setId ++
  ByteWriter.putGeneration batch.setGeneration ++
  ByteWriter.putGeneration batch.generation ++
  ByteWriter.putU16 batch.batchOutcome.code ++
  ByteWriter.putU16 batch.primaryBatchReason.code ++
  ByteWriter.putBool batch.hasAdmissible ++
  ByteWriter.putU8 0 ++
  ByteWriter.putAll encodeEvaluation batch.records ++
  ByteWriter.putAll writeRanked batch.admissibleOrder

/-- A generation that the batch decoder leaves unset when it is not representable. -/
def readBatchGeneration {domain : GenerationDomain} :
    ByteReader.Reader (Generation domain) := do
  let generation : Generation domain ← ByteReader.generation
  return if Generation.isRepresentable generation.value then generation else {}

/-- An entry of the order of a batch with so many records. -/
def readRanked (records : Nat) : ByteReader.Reader RankedCandidate := do
  let path : PathId ← ByteReader.id
  let recordIndex ← ByteReader.u32
  accept (path.isValid && recordIndex.toNat < records)
  return { path, recordIndex }

def decodeEvaluationBatch (limits : Limits) : ByteReader.Reader EvaluationBatch := do
  let setId ← ByteReader.id
  let setGeneration ← readBatchGeneration
  let generation ← readBatchGeneration
  let batchOutcome ← BatchOutcome.read
  let primaryBatchReason ← ReasonCode.read
  let hasAdmissible ← ByteReader.boolean
  ByteReader.padding8
  let records ← ByteReader.all limits.maxCandidatesPerEvaluation (decodeEvaluation limits)
  let admissibleOrder ← ByteReader.all limits.maxCandidatesPerEvaluation
    (readRanked records.length)
  return { setId, setGeneration, generation, batchOutcome, primaryBatchReason, hasAdmissible,
           records, admissibleOrder }

structure EvaluateCandidatesAckPayload where
  batch : EvaluationBatch := {}
deriving DecidableEq

def encodeEvaluateResponse (payload : EvaluateCandidatesAckPayload) : List UInt8 :=
  encodeEvaluationBatch payload.batch

def decodeEvaluateResponse (limits : Limits) :
    ByteReader.Reader EvaluateCandidatesAckPayload := do
  let batch ← decodeEvaluationBatch limits
  return { batch }

end ConstraintRouting.Fabric
