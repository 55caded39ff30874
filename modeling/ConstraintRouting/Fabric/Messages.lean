import ConstraintRouting.Fabric.Protocol
import ConstraintRouting.Fabric.Queries

/-!
# Report payloads

The payloads that the server answers queries with, and the lifecycle request.
-/

namespace ConstraintRouting.Fabric

open Verified.Readers.Reader (accept)

/-- What precedes a report: whether the set was found, and padding. -/
def writeFound (found : Bool) : List UInt8 :=
  ByteWriter.putBool found ++
  ByteWriter.putU8 0 ++
  ByteWriter.putU16 0 ++
  ByteWriter.putU32 0

def readFound : ByteReader.Reader Bool := do
  let found ← ByteReader.boolean
  ByteReader.padding8
  ByteReader.padding16
  ByteReader.padding32
  return found

structure DefinitionsReportPayload where
  found : Bool := false
  snapshot : DefinitionsSnapshot := {}
deriving DecidableEq

def encodeDefinitionsReport (payload : DefinitionsReportPayload) : List UInt8 :=
  writeFound payload.found ++
  if payload.found then encodeDefinitionsSnapshot payload.snapshot else []

def decodeDefinitionsReport (limits : Limits) : ByteReader.Reader DefinitionsReportPayload := do
  let found ← readFound
  if !found then return {}
  let snapshot ← decodeDefinitionsSnapshot limits
  return { found, snapshot }

structure ResultsReportPayload where
  found : Bool := false
  snapshot : ResultsSnapshot := {}
deriving DecidableEq

def encodeResultsReport (payload : ResultsReportPayload) : List UInt8 :=
  writeFound payload.found ++
  if payload.found then encodeResultsSnapshot payload.snapshot else []

def decodeResultsReport (limits : Limits) : ByteReader.Reader ResultsReportPayload := do
  let found ← readFound
  if !found then return {}
  let snapshot ← decodeResultsSnapshot limits
  return { found, snapshot }

structure CurrentnessReportPayload where
  found : Bool := false
  report : CurrentnessReport := {}
deriving DecidableEq

def writeCause (cause : CurrentnessCause) : List UInt8 :=
  ByteWriter.putU8 cause.code ++
  ByteWriter.putU8 0 ++
  ByteWriter.putU16 0 ++
  ByteWriter.putU32 0

def encodeCurrentness (report : CurrentnessReport) : List UInt8 :=
  ByteWriter.putId report.setId ++
  ByteWriter.putGeneration report.setGeneration ++
  ByteWriter.putU8 report.state.code ++
  ByteWriter.putU8 0 ++
  ByteWriter.putU16 0 ++
  ByteWriter.putU32 0 ++
  ByteWriter.putGeneration report.evaluationGeneration ++
  encodeEvidenceRequirements report.requiredEvidence ++
  encodeEvidenceRequirements report.publishedEvidence ++
  ByteWriter.putU64 (UInt64.ofNat report.currentResults) ++
  ByteWriter.putU64 (UInt64.ofNat report.revalidationRequired) ++
  ByteWriter.putU64 (UInt64.ofNat report.recoveredUnproven) ++
  ByteWriter.putBool report.publisherAuthorityLive ++
  ByteWriter.putU8 0 ++
  ByteWriter.putU16 0 ++
  ByteWriter.putAll writeCause report.causes

def encodeCurrentnessReport (payload : CurrentnessReportPayload) : List UInt8 :=
  writeFound payload.found ++
  if payload.found then encodeCurrentness payload.report else []

/-- A cause of staleness: from the change of the state to the absence of a result. -/
def CurrentnessCause.read : ByteReader.Reader CurrentnessCause :=
  ByteReader.enum8
    [.constraintSetStateChanged, .constraintSetSuperseded, .constraintSetGenerationAdvanced,
     .pathAuthorityAdvanced, .topologyAdvanced, .linkStateAdvanced, .capabilityAdvanced,
     .failureDomainAdvanced, .policyAdvanced, .plannerAdvanced, .evidenceRequirementChanged,
     .dependencyInvalidated, .epochAdvanced, .recoveredUnproven, .noCurrentResult]
    CurrentnessCause.code

def readCause : ByteReader.Reader CurrentnessCause := do
  let cause ← CurrentnessCause.read
  ByteReader.padding8
  ByteReader.padding16
  ByteReader.padding32
  return cause

/-- Decodes a report.  The padding after the authority flag is not looked at. -/
def decodeCurrentness : ByteReader.Reader CurrentnessReport := do
  let setId ← ByteReader.id
  let setGeneration ← ByteReader.generationField
  let state ← ConstraintSetState.read
  ByteReader.padding8
  ByteReader.padding16
  ByteReader.padding32
  let evaluationGeneration ← ByteReader.generationField
  let requiredEvidence ← decodeEvidenceRequirements
  let publishedEvidence ← decodeEvidenceRequirements
  let currentResults ← ByteReader.u64
  let revalidationRequired ← ByteReader.u64
  let recoveredUnproven ← ByteReader.u64
  let publisherAuthorityLive ← ByteReader.boolean
  let _ ← ByteReader.u8
  let _ ← ByteReader.u16
  let causes ← ByteReader.all 64 readCause
  return { setId, setGeneration, state, evaluationGeneration, requiredEvidence,
           publishedEvidence, publisherAuthorityLive, causes
           currentResults := currentResults.toNat
           revalidationRequired := revalidationRequired.toNat
           recoveredUnproven := recoveredUnproven.toNat }

def decodeCurrentnessReport : ByteReader.Reader CurrentnessReportPayload := do
  let found ← readFound
  if !found then return {}
  let report ← decodeCurrentness
  return { found, report }

structure LifecycleRequestPayload where
  setId : ConstraintSetId := {}
  event : LifecycleEvent := .activate
deriving DecidableEq

def encodeLifecycleRequest (payload : LifecycleRequestPayload) : List UInt8 :=
  ByteWriter.putId payload.setId ++
  ByteWriter.putU8 payload.event.code ++
  ByteWriter.putU8 0 ++
  ByteWriter.putU16 0 ++
  ByteWriter.putU32 0

def LifecycleEvent.read : ByteReader.Reader LifecycleEvent :=
  ByteReader.enum8
    [.activate, .suspend, .resume, .requireRevalidation, .revalidated, .revoke, .supersede,
     .retire, .reinstate]
    LifecycleEvent.code

def decodeLifecycleRequest : ByteReader.Reader LifecycleRequestPayload := do
  let setId : ConstraintSetId ← ByteReader.id
  let event ← LifecycleEvent.read
  ByteReader.padding8
  ByteReader.padding16
  ByteReader.padding32
  accept setId.isValid
  return { setId, event }

structure SessionFencedPayload where
  boot : WorkerBootId := {}
  epoch : CoordinatorEpoch := {}
deriving DecidableEq

def encodeSessionFenced (payload : SessionFencedPayload) : List UInt8 :=
  ByteWriter.putId payload.boot ++
  ByteWriter.putGeneration payload.epoch

def decodeSessionFenced : ByteReader.Reader SessionFencedPayload := do
  let boot : WorkerBootId ← ByteReader.id
  let epoch : CoordinatorEpoch ← ByteReader.generation
  accept (boot.isValid && Generation.isRepresentable epoch.value)
  return { boot, epoch }

/-- The identity that a query asks about. -/
def decodeQuery : ByteReader.Reader ConstraintSetId := do
  let setId : ConstraintSetId ← ByteReader.id
  accept setId.isValid
  return setId

end ConstraintRouting.Fabric
