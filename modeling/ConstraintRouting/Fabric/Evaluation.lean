import ConstraintRouting.Fabric.Candidate

/-!
# Outcomes, reasons and evaluation records

The result of evaluating one candidate: its outcome, its deterministic reasons
under their total order, and the self-describing record with its digest, its
derived identity and its encoding.
-/

namespace ConstraintRouting.Fabric

open Verified.Readers.Reader (accept)

/-! ## Outcomes and reasons -/

/-- Result class of one candidate evaluation. -/
inductive Outcome where
  | admissible | admissibleWithPreferences | hardConstraintFailed
  | unknownRequiredEvidence | stalePathAuthority | staleConstraintSet | staleEvidence
  | revalidationRequired | unauthorized | resourceLimit | malformed
deriving DecidableEq

/-- Precedence class of a reason; the order of the constructors is the precedence. -/
inductive ReasonClass where
  | resourceAdmission | wireDecode | callerIdentity | epochBootScope
  | constraintSetLifecycle | pathAuthority | evidenceCurrentness | mandatoryConstraint
  | preference
deriving DecidableEq

/-- Deterministic machine-readable reason. -/
inductive ReasonCode where
  | none | resourceLimitExceeded | batchTooLarge | tooManyConstraints
  | tooManyCandidates | tooManyEntityRefs | explanationTruncated | historyLimitReached
  | malformedFrame | unsupportedProtocolVersion | unknownMessageId | trailingBytes
  | oversizedVector | integrityMismatch | malformedConstraint | malformedCandidate
  | unsupportedVersion | unknownPublisher | publisherNotRegistered | sessionFenced
  | scopeNotAuthorized | missingAuthorityContext | mutationAttemptConflict
  | staleCoordinatorEpoch | futureCoordinatorEpoch | fencedWorkerBoot
  | unknownWorkerBoot | workerBootReused | constraintSetNotFound
  | constraintSetNotActive | constraintSetSuspended
  | constraintSetRevalidationRequired | constraintSetRevoked | constraintSetSuperseded
  | constraintSetRetired | staleConstraintSetGeneration | contradictoryConstraintSet
  | pathAuthorityNotEvaluated | pathNotLegal | stalePathAuthority
  | pathAuthorityGenerationMissing | staleTopologyEvidence | staleLinkStateEvidence
  | staleCapabilityEvidence | staleFailureDomainEvidence | stalePolicyEvidence
  | stalePlannerEvidence | evidenceAgeExceeded | evidenceNotBound
  | plannerCostModelMismatch | unknownRequiredEvidence | maxLatencyExceeded
  | latencyEvidenceUnavailable | minBandwidthCapabilityNotMet
  | bandwidthCapabilityUnavailable | requiredNodeAbsent | forbiddenNodePresent
  | requiredLinkAbsent | forbiddenLinkPresent | requiredTierNotMet
  | forbiddenTierPresent | requiredSiteNotMet | forbiddenSitePresent
  | localityScopeViolated | isolationClassNotProven | requiredCapabilityMissing
  | forbiddenCapabilityPresent | requiredFailureDomainRelationNotMet
  | forbiddenFailureDomainRelationMet | administrativePolicyNotSatisfied
  | maxHopCountExceeded | tierEvidenceUnavailable | siteEvidenceUnavailable
  | localityEvidenceUnavailable | isolationEvidenceUnavailable
  | capabilityEvidenceUnavailable | failureDomainEvidenceUnavailable
  | policyEvidenceUnavailable
deriving DecidableEq

/-- Typed subject of a reason. -/
inductive SubjectKind where
  | none | constraint | candidatePath | constraintSet | node | link | tier | site
  | capability | policy | failureDomain | localityDomain | isolationClass | publisher
  | workerBoot | coordinator
deriving DecidableEq

def Outcome.code : Outcome → UInt16
  | .admissible => 0
  | .admissibleWithPreferences => 1
  | .hardConstraintFailed => 2
  | .unknownRequiredEvidence => 3
  | .stalePathAuthority => 4
  | .staleConstraintSet => 5
  | .staleEvidence => 6
  | .revalidationRequired => 7
  | .unauthorized => 8
  | .resourceLimit => 9
  | .malformed => 10

def ReasonClass.code : ReasonClass → UInt8
  | .resourceAdmission => 0
  | .wireDecode => 1
  | .callerIdentity => 2
  | .epochBootScope => 3
  | .constraintSetLifecycle => 4
  | .pathAuthority => 5
  | .evidenceCurrentness => 6
  | .mandatoryConstraint => 7
  | .preference => 8

def ReasonCode.code : ReasonCode → UInt16
  | .none => 0
  | .resourceLimitExceeded => 100
  | .batchTooLarge => 101
  | .tooManyConstraints => 102
  | .tooManyCandidates => 103
  | .tooManyEntityRefs => 104
  | .explanationTruncated => 105
  | .historyLimitReached => 106
  | .malformedFrame => 200
  | .unsupportedProtocolVersion => 201
  | .unknownMessageId => 202
  | .trailingBytes => 203
  | .oversizedVector => 204
  | .integrityMismatch => 205
  | .malformedConstraint => 206
  | .malformedCandidate => 207
  | .unsupportedVersion => 208
  | .unknownPublisher => 300
  | .publisherNotRegistered => 301
  | .sessionFenced => 302
  | .scopeNotAuthorized => 303
  | .missingAuthorityContext => 304
  | .mutationAttemptConflict => 305
  | .staleCoordinatorEpoch => 400
  | .futureCoordinatorEpoch => 401
  | .fencedWorkerBoot => 402
  | .unknownWorkerBoot => 403
  | .workerBootReused => 404
  | .constraintSetNotFound => 500
  | .constraintSetNotActive => 501
  | .constraintSetSuspended => 502
  | .constraintSetRevalidationRequired => 503
  | .constraintSetRevoked => 504
  | .constraintSetSuperseded => 505
  | .constraintSetRetired => 506
  | .staleConstraintSetGeneration => 507
  | .contradictoryConstraintSet => 508
  | .pathAuthorityNotEvaluated => 600
  | .pathNotLegal => 601
  | .stalePathAuthority => 602
  | .pathAuthorityGenerationMissing => 603
  | .staleTopologyEvidence => 700
  | .staleLinkStateEvidence => 701
  | .staleCapabilityEvidence => 702
  | .staleFailureDomainEvidence => 703
  | .stalePolicyEvidence => 704
  | .stalePlannerEvidence => 705
  | .evidenceAgeExceeded => 706
  | .evidenceNotBound => 707
  | .plannerCostModelMismatch => 708
  | .unknownRequiredEvidence => 709
  | .maxLatencyExceeded => 800
  | .latencyEvidenceUnavailable => 801
  | .minBandwidthCapabilityNotMet => 802
  | .bandwidthCapabilityUnavailable => 803
  | .requiredNodeAbsent => 804
  | .forbiddenNodePresent => 805
  | .requiredLinkAbsent => 806
  | .forbiddenLinkPresent => 807
  | .requiredTierNotMet => 808
  | .forbiddenTierPresent => 809
  | .requiredSiteNotMet => 810
  | .forbiddenSitePresent => 811
  | .localityScopeViolated => 812
  | .isolationClassNotProven => 813
  | .requiredCapabilityMissing => 814
  | .forbiddenCapabilityPresent => 815
  | .requiredFailureDomainRelationNotMet => 816
  | .forbiddenFailureDomainRelationMet => 817
  | .administrativePolicyNotSatisfied => 818
  | .maxHopCountExceeded => 819
  | .tierEvidenceUnavailable => 820
  | .siteEvidenceUnavailable => 821
  | .localityEvidenceUnavailable => 822
  | .isolationEvidenceUnavailable => 823
  | .capabilityEvidenceUnavailable => 824
  | .failureDomainEvidenceUnavailable => 825
  | .policyEvidenceUnavailable => 826

def SubjectKind.code : SubjectKind → UInt8
  | .none => 0
  | .constraint => 1
  | .candidatePath => 2
  | .constraintSet => 3
  | .node => 4
  | .link => 5
  | .tier => 6
  | .site => 7
  | .capability => 8
  | .policy => 9
  | .failureDomain => 10
  | .localityDomain => 11
  | .isolationClass => 12
  | .publisher => 13
  | .workerBoot => 14
  | .coordinator => 15

/-- One deterministic reason.  Its value fields are integer identities only. -/
structure Reason where
  code : ReasonCode := .none
  reasonClass : ReasonClass := .resourceAdmission
  constraint : ConstraintId := {}
  constraintKind : ConstraintKind := .unset
  constraintOrdinal : UInt32 := 0
  family : EvidenceFamily := .none
  subjectKind : SubjectKind := .none
  subject : UInt64 := 0
  expected : UInt64 := 0
  actual : UInt64 := 0
deriving DecidableEq

/-- The precedence class of a code, by its hundred. -/
def reasonClassOf (code : ReasonCode) : ReasonClass :=
  let value := code.code
  if 100 ≤ value && value < 200 then .resourceAdmission
  else if 200 ≤ value && value < 300 then .wireDecode
  else if 300 ≤ value && value < 400 then .callerIdentity
  else if 400 ≤ value && value < 500 then .epochBootScope
  else if 500 ≤ value && value < 600 then .constraintSetLifecycle
  else if 600 ≤ value && value < 700 then .pathAuthority
  else if 700 ≤ value && value < 800 then .evidenceCurrentness
  else if 800 ≤ value && value < 900 then .mandatoryConstraint
  else .preference

/-- The outcome that a primary reason decides. -/
def outcomeOf : ReasonCode → Outcome
  | .none => .admissible
  | .resourceLimitExceeded | .batchTooLarge | .tooManyConstraints | .tooManyCandidates
  | .tooManyEntityRefs | .explanationTruncated | .historyLimitReached =>
      .resourceLimit
  | .malformedFrame | .unsupportedProtocolVersion | .unknownMessageId | .trailingBytes
  | .oversizedVector | .integrityMismatch | .malformedConstraint | .malformedCandidate
  | .unsupportedVersion =>
      .malformed
  | .unknownPublisher | .publisherNotRegistered | .sessionFenced | .scopeNotAuthorized
  | .missingAuthorityContext | .mutationAttemptConflict | .pathNotLegal
  | .constraintSetRevoked =>
      .unauthorized
  | .staleCoordinatorEpoch | .futureCoordinatorEpoch | .fencedWorkerBoot
  | .unknownWorkerBoot | .workerBootReused =>
      .unauthorized
  | .pathAuthorityNotEvaluated | .pathAuthorityGenerationMissing =>
      .unknownRequiredEvidence
  | .stalePathAuthority => .stalePathAuthority
  | .constraintSetNotFound | .constraintSetNotActive | .constraintSetSuspended
  | .constraintSetSuperseded | .constraintSetRetired | .staleConstraintSetGeneration
  | .contradictoryConstraintSet =>
      .staleConstraintSet
  | .constraintSetRevalidationRequired => .revalidationRequired
  | .staleTopologyEvidence | .staleLinkStateEvidence | .staleCapabilityEvidence
  | .staleFailureDomainEvidence | .stalePolicyEvidence | .stalePlannerEvidence
  | .evidenceAgeExceeded | .evidenceNotBound =>
      .staleEvidence
  | .plannerCostModelMismatch | .unknownRequiredEvidence | .latencyEvidenceUnavailable
  | .bandwidthCapabilityUnavailable | .tierEvidenceUnavailable
  | .siteEvidenceUnavailable | .localityEvidenceUnavailable
  | .isolationEvidenceUnavailable | .capabilityEvidenceUnavailable
  | .failureDomainEvidenceUnavailable | .policyEvidenceUnavailable =>
      .unknownRequiredEvidence
  | _ => .hardConstraintFailed

/-- Total order over reasons: class, canonical constraint ordinal, code, and then
the remaining fields. -/
def compareReason : Reason → Reason → Ordering :=
  compareLex (compareOn (·.reasonClass.code)) <|
  compareLex (compareOn (·.constraintOrdinal)) <|
  compareLex (compareOn (·.code.code)) <|
  compareLex (compareOn (·.constraint)) <|
  compareLex (compareOn (·.family.code)) <|
  compareLex (compareOn (·.subjectKind.code)) <|
  compareLex (compareOn (·.subject)) <|
  compareLex (compareOn (·.expected)) (compareOn (·.actual))

def reasonLess (a b : Reason) : Bool := compareReason a b = .lt

/-! ## Records -/

/-- One slot of the preference vector. -/
structure PreferenceSlot where
  constraint : ConstraintId := {}
  kind : ConstraintKind := .unset
  constraintOrdinal : UInt32 := 0
  rank : UInt32 := 0
  weight : UInt32 := 0
  satisfied : Bool := false
  margin : Int64 := 0
deriving DecidableEq

/-- Where an evaluation result stands in the authoritative result index. -/
inductive ResultState where
  | current | superseded | revalidationRequired | recoveredUnproven | staleAtCommit
deriving DecidableEq

def ResultState.code : ResultState → UInt8
  | .current => 1
  | .superseded => 2
  | .revalidationRequired => 3
  | .recoveredUnproven => 4
  | .staleAtCommit => 5

/-- Authority provenance of a published fact or evaluation. -/
structure Provenance where
  epoch : CoordinatorEpoch := {}
  publisher : PublisherId := {}
  workerBoot : WorkerBootId := {}
  attempt : MutationAttemptId := {}
  request : RequestId := {}
deriving DecidableEq

/-- The complete result of evaluating one candidate. -/
structure EvaluationRecord where
  id : ConstraintEvaluationId := {}
  generation : EvaluationGeneration := {}
  setId : ConstraintSetId := {}
  setGeneration : ConstraintSetGeneration := {}
  path : PathId := {}
  authorityGeneration : PathAuthorityGeneration := {}
  outcome : Outcome := .malformed
  primaryReason : ReasonCode := .none
  reasons : List Reason := []
  preferences : List PreferenceSlot := []
  evidence : EvidenceGenerationSet := {}
  consulted : EvidenceFamilyMask := 0
  provenance : Provenance := {}
  state : ResultState := .current
  reasonsTruncated : Bool := false
  committedTick : UInt64 := 0
  digest : Digest256 := {}
deriving DecidableEq

/-- The record's outcome is one of the two admissible ones. -/
def EvaluationRecord.isAdmissible (record : EvaluationRecord) : Bool :=
  record.outcome = .admissible || record.outcome = .admissibleWithPreferences

/-- Summary class of a whole evaluation batch. -/
inductive BatchOutcome where
  | admissibleCandidatesAvailable | noAdmissibleCandidate | batchRejected
deriving DecidableEq

/-- One entry of the deterministic admissible ordering. -/
structure RankedCandidate where
  path : PathId := {}
  recordIndex : UInt32 := 0
deriving DecidableEq

structure EvaluationBatch where
  setId : ConstraintSetId := {}
  setGeneration : ConstraintSetGeneration := {}
  generation : EvaluationGeneration := {}
  batchOutcome : BatchOutcome := .batchRejected
  hasAdmissible : Bool := false
  records : List EvaluationRecord := []
  admissibleOrder : List RankedCandidate := []
  primaryBatchReason : ReasonCode := .none
deriving DecidableEq

/-! ## Digest, identity and encoding -/

def feedReason (reason : Reason) : List UInt8 :=
  SemanticHasher.putU16 reason.code.code ++
  SemanticHasher.putU8 reason.reasonClass.code ++
  SemanticHasher.putId reason.constraint ++
  SemanticHasher.putU16 reason.constraintKind.code ++
  SemanticHasher.putU32 reason.constraintOrdinal ++
  SemanticHasher.putU8 reason.family.code ++
  SemanticHasher.putU8 reason.subjectKind.code ++
  SemanticHasher.putU64 reason.subject ++
  SemanticHasher.putU64 reason.expected ++
  SemanticHasher.putU64 reason.actual

def feedPreference (slot : PreferenceSlot) : List UInt8 :=
  SemanticHasher.putId slot.constraint ++
  SemanticHasher.putU16 slot.kind.code ++
  SemanticHasher.putU32 slot.constraintOrdinal ++
  SemanticHasher.putU32 slot.rank ++
  SemanticHasher.putU32 slot.weight ++
  SemanticHasher.putBool slot.satisfied ++
  SemanticHasher.putI64 slot.margin

/-- The bytes of a record's semantic content; provenance is excluded. -/
def feedEvaluation (record : EvaluationRecord) : List UInt8 :=
  SemanticHasher.putId record.id ++
  SemanticHasher.putGeneration record.generation ++
  SemanticHasher.putId record.setId ++
  SemanticHasher.putGeneration record.setGeneration ++
  SemanticHasher.putId record.path ++
  SemanticHasher.putGeneration record.authorityGeneration ++
  SemanticHasher.putU16 record.outcome.code ++
  SemanticHasher.putU16 record.primaryReason.code ++
  SemanticHasher.putU8 record.state.code ++
  SemanticHasher.putBool record.reasonsTruncated ++
  SemanticHasher.putAll feedReason record.reasons ++
  SemanticHasher.putAll feedPreference record.preferences ++
  feedEvidence record.evidence ++
  SemanticHasher.putU32 record.consulted

/-- Semantic digest of an evaluation record. -/
def evaluationDigest (record : EvaluationRecord) : Digest256 :=
  digestOf "crf.evaluation.v1" (feedEvaluation record)

/-- Deterministic evaluation identity derived from the semantic binding. -/
def derivedEvaluationId (setId : ConstraintSetId)
    (setGeneration : ConstraintSetGeneration) (path : PathId)
    (authorityGeneration : PathAuthorityGeneration)
    (evidence : EvidenceGenerationSet) : ConstraintEvaluationId :=
  let digest := digestOf "crf.evaluation-id.v1" <|
    SemanticHasher.putId setId ++
    SemanticHasher.putGeneration setGeneration ++
    SemanticHasher.putId path ++
    SemanticHasher.putGeneration authorityGeneration ++
    feedEvidence evidence
  let derived := digest.leadingU64
  ⟨if derived = 0 then 1 else derived⟩

def encodeProvenance (provenance : Provenance) : List UInt8 :=
  ByteWriter.putGeneration provenance.epoch ++
  ByteWriter.putId provenance.publisher ++
  ByteWriter.putId provenance.workerBoot ++
  ByteWriter.putId provenance.attempt ++
  ByteWriter.putId provenance.request

def writeReason (reason : Reason) : List UInt8 :=
  ByteWriter.putU16 reason.code.code ++
  ByteWriter.putU8 reason.reasonClass.code ++
  ByteWriter.putU8 reason.family.code ++
  ByteWriter.putU8 reason.subjectKind.code ++
  ByteWriter.putU8 0 ++
  ByteWriter.putId reason.constraint ++
  ByteWriter.putU16 reason.constraintKind.code ++
  ByteWriter.putU16 0 ++
  ByteWriter.putU32 reason.constraintOrdinal ++
  ByteWriter.putU64 reason.subject ++
  ByteWriter.putU64 reason.expected ++
  ByteWriter.putU64 reason.actual

def writePreference (slot : PreferenceSlot) : List UInt8 :=
  ByteWriter.putId slot.constraint ++
  ByteWriter.putU16 slot.kind.code ++
  ByteWriter.putU16 0 ++
  ByteWriter.putU32 slot.constraintOrdinal ++
  ByteWriter.putU32 slot.rank ++
  ByteWriter.putU32 slot.weight ++
  ByteWriter.putBool slot.satisfied ++
  ByteWriter.putI64 slot.margin

def encodeEvaluation (record : EvaluationRecord) : List UInt8 :=
  ByteWriter.putId record.id ++
  ByteWriter.putGeneration record.generation ++
  ByteWriter.putId record.setId ++
  ByteWriter.putGeneration record.setGeneration ++
  ByteWriter.putId record.path ++
  ByteWriter.putGeneration record.authorityGeneration ++
  ByteWriter.putU16 record.outcome.code ++
  ByteWriter.putU16 record.primaryReason.code ++
  ByteWriter.putU8 record.state.code ++
  ByteWriter.putBool record.reasonsTruncated ++
  ByteWriter.putU64 record.committedTick ++
  encodeProvenance record.provenance ++
  writeEvidenceSet record.evidence ++
  ByteWriter.putAll writeReason record.reasons ++
  ByteWriter.putAll writePreference record.preferences ++
  ByteWriter.putU32 record.consulted ++
  ByteWriter.putRaw record.digest.bytes

/-! ## Decoding -/

def Outcome.read : ByteReader.Reader Outcome :=
  ByteReader.enum16
    [.admissible, .admissibleWithPreferences, .hardConstraintFailed,
     .unknownRequiredEvidence, .stalePathAuthority, .staleConstraintSet, .staleEvidence,
     .revalidationRequired, .unauthorized, .resourceLimit, .malformed]
    Outcome.code

def ReasonClass.read : ByteReader.Reader ReasonClass :=
  ByteReader.enum8
    [.resourceAdmission, .wireDecode, .callerIdentity, .epochBootScope,
     .constraintSetLifecycle, .pathAuthority, .evidenceCurrentness, .mandatoryConstraint,
     .preference]
    ReasonClass.code

/-- A reason code.  The source casts the raw value unchecked; a value that is no
enumerator, which its writer never produces, is refused here. -/
def ReasonCode.read : ByteReader.Reader ReasonCode :=
  ByteReader.enum16
    [.none, .resourceLimitExceeded, .batchTooLarge, .tooManyConstraints, .tooManyCandidates,
     .tooManyEntityRefs, .explanationTruncated, .historyLimitReached, .malformedFrame,
     .unsupportedProtocolVersion, .unknownMessageId, .trailingBytes, .oversizedVector,
     .integrityMismatch, .malformedConstraint, .malformedCandidate, .unsupportedVersion,
     .unknownPublisher, .publisherNotRegistered, .sessionFenced, .scopeNotAuthorized,
     .missingAuthorityContext, .mutationAttemptConflict, .staleCoordinatorEpoch,
     .futureCoordinatorEpoch, .fencedWorkerBoot, .unknownWorkerBoot, .workerBootReused,
     .constraintSetNotFound, .constraintSetNotActive, .constraintSetSuspended,
     .constraintSetRevalidationRequired, .constraintSetRevoked, .constraintSetSuperseded,
     .constraintSetRetired, .staleConstraintSetGeneration, .contradictoryConstraintSet,
     .pathAuthorityNotEvaluated, .pathNotLegal, .stalePathAuthority,
     .pathAuthorityGenerationMissing, .staleTopologyEvidence, .staleLinkStateEvidence,
     .staleCapabilityEvidence, .staleFailureDomainEvidence, .stalePolicyEvidence,
     .stalePlannerEvidence, .evidenceAgeExceeded, .evidenceNotBound,
     .plannerCostModelMismatch, .unknownRequiredEvidence, .maxLatencyExceeded,
     .latencyEvidenceUnavailable, .minBandwidthCapabilityNotMet,
     .bandwidthCapabilityUnavailable, .requiredNodeAbsent, .forbiddenNodePresent,
     .requiredLinkAbsent, .forbiddenLinkPresent, .requiredTierNotMet, .forbiddenTierPresent,
     .requiredSiteNotMet, .forbiddenSitePresent, .localityScopeViolated,
     .isolationClassNotProven, .requiredCapabilityMissing, .forbiddenCapabilityPresent,
     .requiredFailureDomainRelationNotMet, .forbiddenFailureDomainRelationMet,
     .administrativePolicyNotSatisfied, .maxHopCountExceeded, .tierEvidenceUnavailable,
     .siteEvidenceUnavailable, .localityEvidenceUnavailable, .isolationEvidenceUnavailable,
     .capabilityEvidenceUnavailable, .failureDomainEvidenceUnavailable,
     .policyEvidenceUnavailable]
    ReasonCode.code

def SubjectKind.read : ByteReader.Reader SubjectKind :=
  ByteReader.enum8
    [.none, .constraint, .candidatePath, .constraintSet, .node, .link, .tier, .site,
     .capability, .policy, .failureDomain, .localityDomain, .isolationClass, .publisher,
     .workerBoot, .coordinator]
    SubjectKind.code

def ResultState.read : ByteReader.Reader ResultState :=
  ByteReader.enum8
    [.current, .superseded, .revalidationRequired, .recoveredUnproven, .staleAtCommit]
    ResultState.code

def decodeProvenance : ByteReader.Reader Provenance := do
  let epoch ← ByteReader.generationField
  let publisher ← ByteReader.id
  let workerBoot ← ByteReader.id
  let attempt ← ByteReader.id
  let request ← ByteReader.id
  return { epoch, publisher, workerBoot, attempt, request }

def readReason : ByteReader.Reader Reason := do
  let code ← ReasonCode.read
  let reasonClass ← ReasonClass.read
  let family ← EvidenceFamily.read
  let subjectKind ← SubjectKind.read
  ByteReader.padding8
  let constraint ← ByteReader.id
  let constraintKind ← ConstraintKind.read
  ByteReader.padding16
  let constraintOrdinal ← ByteReader.u32
  let subject ← ByteReader.u64
  let expected ← ByteReader.u64
  let actual ← ByteReader.u64
  accept (reasonClassOf code = reasonClass)
  return { code, reasonClass, constraint, constraintKind, constraintOrdinal, family,
           subjectKind, subject, expected, actual }

def readPreference : ByteReader.Reader PreferenceSlot := do
  let constraint ← ByteReader.id
  let kind ← ConstraintKind.read
  ByteReader.padding16
  let constraintOrdinal ← ByteReader.u32
  let rank ← ByteReader.u32
  let weight ← ByteReader.u32
  let satisfied ← ByteReader.boolean
  let margin ← ByteReader.i64
  return { constraint, kind, constraintOrdinal, rank, weight, satisfied, margin }

/-- The head of a reason vector, or no reason. -/
def headReason : List Reason → ReasonCode
  | [] => .none
  | reason :: _ => reason.code

/-- Decodes a record; its identities and generations are never defaults. -/
def decodeEvaluation (limits : Limits) : ByteReader.Reader EvaluationRecord := do
  let id : ConstraintEvaluationId ← ByteReader.id
  let generation : EvaluationGeneration ← ByteReader.generation
  let setId : ConstraintSetId ← ByteReader.id
  let setGeneration : ConstraintSetGeneration ← ByteReader.generation
  let path : PathId ← ByteReader.id
  let authorityGeneration : PathAuthorityGeneration ← ByteReader.generation
  let outcome ← Outcome.read
  let primaryReason ← ReasonCode.read
  let state ← ResultState.read
  let reasonsTruncated ← ByteReader.boolean
  let committedTick ← ByteReader.u64
  accept (id.isValid && Generation.isRepresentable generation.value && setId.isValid &&
    Generation.isRepresentable setGeneration.value && path.isValid &&
    Generation.isRepresentable authorityGeneration.value)
  let provenance ← decodeProvenance
  let evidence ← readEvidenceSet
  let reasons ← ByteReader.all limits.maxExplanationReasons readReason
  accept (Verified.SortedLists.strictlyAscending compareReason reasons)
  accept (primaryReason = headReason reasons)
  let preferences ← ByteReader.all limits.maxConstraintsPerSet readPreference
  let consulted ← ByteReader.u32
  let digest ← Digest256.read
  return { id, generation, setId, setGeneration, path, authorityGeneration, outcome,
           primaryReason, reasons, preferences, evidence, consulted, provenance, state,
           reasonsTruncated, committedTick, digest }

/-! ## Reasons decide outcomes -/

/-- Only the absent reason stands for an admissible outcome. -/
theorem outcomeOf_admissible_iff {code : ReasonCode} :
    outcomeOf code = .admissible ↔ code = .none := by
  cases code <;> decide

/-- No reason stands for an admission with preferences. -/
theorem outcomeOf_ne_admissibleWithPreferences (code : ReasonCode) :
    outcomeOf code ≠ .admissibleWithPreferences := by
  cases code <;> decide

end ConstraintRouting.Fabric
