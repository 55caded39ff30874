import ConstraintRouting.Fabric.ConstraintSet
import ConstraintRouting.Fabric.Evaluation

/-!
# Snapshots

Immutable views of a definition and of the results of a set.  The identity of a
snapshot is derived from its content.
-/

namespace ConstraintRouting.Fabric

open Verified.Readers.Reader (accept)
open Verified.SortedLists

/-- Immutable view of a constraint-set definition. -/
structure DefinitionsSnapshot where
  id : SnapshotId := {}
  setId : ConstraintSetId := {}
  generation : ConstraintSetGeneration := {}
  state : ConstraintSetState := .declared
  constraints : List Constraint := []
  evidence : EvidenceRequirements := {}
  ranking : RankingPolicy := {}
  digest : Digest256 := {}
deriving DecidableEq

/-- Immutable view of the result for one candidate. -/
structure CandidateResultView where
  path : PathId := {}
  authorityGeneration : PathAuthorityGeneration := {}
  outcome : Outcome := .malformed
  primaryReason : ReasonCode := .none
  state : ResultState := .current
  evaluationId : ConstraintEvaluationId := {}
  evaluationGeneration : EvaluationGeneration := {}
  digest : Digest256 := {}
deriving DecidableEq

/-- Immutable view of the results of a constraint set. -/
structure ResultsSnapshot where
  id : SnapshotId := {}
  setId : ConstraintSetId := {}
  setGeneration : ConstraintSetGeneration := {}
  evaluationGeneration : EvaluationGeneration := {}
  entries : List CandidateResultView := []
  digest : Digest256 := {}
deriving DecidableEq

/-! ## Construction -/

/-- A derived identity is never the unset one. -/
def snapshotIdOf (digest : Digest256) : SnapshotId :=
  let value := digest.leadingU64
  ⟨if value = 0 then 1 else value⟩

def definitionsSnapshotId (snapshot : DefinitionsSnapshot) : SnapshotId :=
  snapshotIdOf <| digestOf "crf.definitions-snapshot.v1" <|
    SemanticHasher.putId snapshot.setId ++
    SemanticHasher.putGeneration snapshot.generation ++
    SemanticHasher.putU8 snapshot.state.code ++
    SemanticHasher.putDigest snapshot.digest

def snapshotDefinitions (set : ConstraintSet) : DefinitionsSnapshot :=
  let snapshot : DefinitionsSnapshot :=
    { setId := set.id, generation := set.generation, state := set.state,
      constraints := set.constraints, evidence := set.evidence, ranking := set.ranking,
      digest := set.digest }
  { snapshot with id := definitionsSnapshotId snapshot }

def feedEntry (entry : CandidateResultView) : List UInt8 :=
  SemanticHasher.putId entry.path ++
  SemanticHasher.putGeneration entry.authorityGeneration ++
  SemanticHasher.putU16 entry.outcome.code ++
  SemanticHasher.putU16 entry.primaryReason.code ++
  SemanticHasher.putU8 entry.state.code ++
  SemanticHasher.putId entry.evaluationId ++
  SemanticHasher.putGeneration entry.evaluationGeneration ++
  SemanticHasher.putDigest entry.digest

def resultsSnapshotId (snapshot : ResultsSnapshot) : SnapshotId :=
  snapshotIdOf snapshot.digest

/-- Entries are ordered by path and then by evaluation generation. -/
def compareEntry : CandidateResultView → CandidateResultView → Ordering :=
  compareLex (compareOn (·.path)) (compareOn (·.evaluationGeneration))

def snapshotResults (setId : ConstraintSetId) (setGeneration : ConstraintSetGeneration)
    (generation : EvaluationGeneration) (entries : List CandidateResultView) :
    ResultsSnapshot :=
  let entries := sortBy compareEntry entries
  let digest := digestOf "crf.results-snapshot.v1" <|
    SemanticHasher.putId setId ++
    SemanticHasher.putGeneration setGeneration ++
    SemanticHasher.putGeneration generation ++
    SemanticHasher.putAll feedEntry entries
  let snapshot : ResultsSnapshot :=
    { setId, setGeneration, evaluationGeneration := generation, entries, digest }
  { snapshot with id := resultsSnapshotId snapshot }

/-! ## Encoding -/

def encodeDefinitionsSnapshot (snapshot : DefinitionsSnapshot) : List UInt8 :=
  ByteWriter.putId snapshot.id ++
  ByteWriter.putId snapshot.setId ++
  ByteWriter.putGeneration snapshot.generation ++
  ByteWriter.putU8 snapshot.state.code ++
  ByteWriter.putU8 0 ++
  ByteWriter.putU16 0 ++
  ByteWriter.putU32 0 ++
  ByteWriter.putAll encodeConstraint snapshot.constraints ++
  encodeEvidenceRequirements snapshot.evidence ++
  encodeRankingPolicy snapshot.ranking ++
  ByteWriter.putRaw snapshot.digest.bytes

def writeEntry (entry : CandidateResultView) : List UInt8 :=
  ByteWriter.putId entry.path ++
  ByteWriter.putGeneration entry.authorityGeneration ++
  ByteWriter.putU16 entry.outcome.code ++
  ByteWriter.putU16 entry.primaryReason.code ++
  ByteWriter.putU8 entry.state.code ++
  ByteWriter.putU8 0 ++
  ByteWriter.putU16 0 ++
  ByteWriter.putId entry.evaluationId ++
  ByteWriter.putGeneration entry.evaluationGeneration ++
  ByteWriter.putRaw entry.digest.bytes

def encodeResultsSnapshot (snapshot : ResultsSnapshot) : List UInt8 :=
  ByteWriter.putId snapshot.id ++
  ByteWriter.putId snapshot.setId ++
  ByteWriter.putGeneration snapshot.setGeneration ++
  ByteWriter.putGeneration snapshot.evaluationGeneration ++
  ByteWriter.putAll writeEntry snapshot.entries ++
  ByteWriter.putRaw snapshot.digest.bytes

/-! ## Decoding -/

def decodeDefinitionsSnapshot (limits : Limits) : ByteReader.Reader DefinitionsSnapshot := do
  let id ← ByteReader.id
  let setId ← ByteReader.id
  let generation ← ByteReader.generationField
  let state ← ConstraintSetState.read
  ByteReader.padding8
  ByteReader.padding16
  ByteReader.padding32
  let constraints ← ByteReader.all limits.maxConstraintsPerSet (decodeConstraint limits)
  let evidence ← decodeEvidenceRequirements
  let ranking ← decodeRankingPolicy
  let digest ← Digest256.read
  return { id, setId, generation, state, constraints, evidence, ranking, digest }

def readEntry : ByteReader.Reader CandidateResultView := do
  let path : PathId ← ByteReader.id
  let authorityGeneration ← ByteReader.generationField
  let outcome ← Outcome.read
  let primaryReason ← ReasonCode.read
  let state ← ResultState.read
  ByteReader.padding8
  ByteReader.padding16
  let evaluationId ← ByteReader.id
  let evaluationGeneration ← ByteReader.generationField
  accept path.isValid
  let digest ← Digest256.read
  return { path, authorityGeneration, outcome, primaryReason, state, evaluationId,
           evaluationGeneration, digest }

/-- Decodes a snapshot whose paths must ascend strictly. -/
def decodeResultsSnapshot (limits : Limits) : ByteReader.Reader ResultsSnapshot := do
  let id ← ByteReader.id
  let setId ← ByteReader.id
  let setGeneration ← ByteReader.generationField
  let evaluationGeneration ← ByteReader.generationField
  let entries ← ByteReader.all limits.maxEvaluationsRetained readEntry
  accept (strictlyAscending (compareOn (·.path)) entries)
  let digest ← Digest256.read
  return { id, setId, setGeneration, evaluationGeneration, entries, digest }

end ConstraintRouting.Fabric
